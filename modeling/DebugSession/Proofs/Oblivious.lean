import DebugSession.Proofs.HiddenState
import DebugSession.Proofs.Operation

namespace DebugSession

def SessionId.editing {σ α : Type} (s : SessionId) (a : Act σ α) : Act σ α := do
  let t ← Act.thread
  s.modifyBindings (·.beginEdit t)
  Act.followedBy a (s.modifyBindings (·.endEdit t))

namespace HiddenState

def beginEdit (g : HiddenState) (t : Thread) : HiddenState :=
  { g with openEdits := t :: g.openEdits }

def endEdit (g : HiddenState) (t : Thread) : HiddenState :=
  { g with openEdits := g.openEdits.erase t }

theorem endEdit_beginEdit (g : HiddenState) (t : Thread) : (g.beginEdit t).endEdit t = g := by
  simp [beginEdit, endEdit]

end HiddenState

namespace World

variable {σ : Type}

def beginEdit (w : World σ) (s : SessionId) (t : Thread) : World σ :=
  w.withSession s fun x => { x with bindings := x.bindings.beginEdit t }

def endEdit (w : World σ) (s : SessionId) (t : Thread) : World σ :=
  w.withSession s fun x => { x with bindings := x.bindings.endEdit t }

variable {w w' : World σ} {s : SessionId} {t : Thread}

theorem hidden_endEdit (hw : w'.hidden = (w.beginEdit s t).hidden) :
    (w'.endEdit s t).hidden = w.hidden := by
  funext u
  rw [endEdit, hidden_withSession (·.endEdit t) fun _ => rfl, hw, beginEdit,
    hidden_withSession (·.beginEdit t) fun _ => rfl]
  split
  · have hid : (HiddenState.endEdit · t) ∘ (HiddenState.beginEdit · t) = id := by
      funext g
      exact g.endEdit_beginEdit t
    rw [Option.map_map, hid, Option.map_id_fun, id]
  · rfl

end World

theorem Alike.beginEdit {σ : Type} {c c' : Scope} {w w' : World σ} (h : Alike c w c' w')
    (s : SessionId) : Alike c (w.beginEdit s c.thread) c' (w'.beginEdit s c'.thread) := by
  have hbare (w : World σ) (t : Thread) : (w.beginEdit s t).bare = w.bare :=
    World.bare_withSession_eq fun _ => rfl
  have hhidden (w : World σ) (c : Scope) (t : SessionId) :
      ((w.beginEdit s c.thread).hidden t).map (c.sees t) =
        ((w.hidden t).map (c.sees t)).map fun p => if s = t then (p.1, true) else p := by
    rw [World.beginEdit, World.hidden_withSession (·.beginEdit c.thread) fun _ => rfl]
    split
    · have hsees (g : HiddenState) : c.sees t (g.beginEdit c.thread) = ((c.sees t g).1, true) := by
        simp [Scope.sees, HiddenState.beginEdit]
      rw [Option.map_map, Option.map_map]
      exact congrArg (Option.map · (w.hidden t)) (funext hsees)
    · rw [Option.map_id']
  refine ⟨by rw [hbare, hbare, h.bare], fun t => ?_, h.free, h.free'⟩
  rw [hhidden, hhidden, h.sees t]

namespace Act.Oblivious

variable {σ α β : Type} {a b : Act σ α} {f : α → Act σ β}

theorem pure (x : α) : Oblivious (Pure.pure x : Act σ α) :=
  fun _ _ _ _ h => ⟨rfl, h.bare, rfl, rfl⟩

theorem throw (p : Panic) : Oblivious (throw p : Act σ α) := fun _ _ _ _ h => ⟨rfl, h.bare, rfl, rfl⟩

theorem bind (ha : Oblivious a) (hf : ∀ x, Oblivious (f x)) : Oblivious (a >>= f) := by
  intro c w c' w' h
  have hr := ha h
  rw [run_bind, run_bind]
  rcases hrun : run a c w with ⟨r, w₁⟩
  rcases hrun' : run a c' w' with ⟨r', w₁'⟩
  rw [hrun, hrun'] at hr
  obtain rfl : r = r' := hr.answer
  cases r with
  | error p => exact ⟨rfl, hr.bare, hr.kept, hr.kept'⟩
  | ok x => exact hr.trans (hf x (hr.alike h))

theorem ite {p : Prop} [Decidable p] (ha : Oblivious a) (hb : Oblivious b) :
    Oblivious (if p then a else b) := by
  split
  · exact ha
  · exact hb

theorem locked (s : SessionId) (ha : Oblivious a) : Oblivious (Act.locked s a) :=
  fun _ _ _ _ h => ha (h.locked s)

theorem keeping (s : SessionId) (ha : Oblivious a) : Oblivious (Act.keeping s a) :=
  fun _ _ _ _ h => ha (h.keeping s)

theorem isLive (s : SessionId) : Oblivious (Act.isLive s : Act σ Bool) := by
  intro c w c' w' h
  have hlive := congrArg Prod.fst (h.sees_session s)
  exact ⟨congrArg Except.ok hlive, h.bare, rfl, rfl⟩

theorem entering {s : SessionId} {otherwise : α} (ha : Oblivious a) :
    Oblivious (Act.entering s otherwise a) :=
  (isLive s).bind fun _ => ite (keeping s ha) (pure otherwise)

theorem run_lockedElsewhere {c : Scope} (hc : c.Free) (s : SessionId) (w : World σ) :
    run (Act.lockedElsewhere s) c w = (.ok false, w) := by
  have hnone : (c.locks.any fun l => l.1 == s && l.2 != c.thread) = false := by
    rw [List.any_eq_false]
    intro l hl
    simp [hc l hl]
  change (Except.ok (c.locks.any fun l => l.1 == s && l.2 != c.thread), w) = _
  rw [hnone]

theorem lockedElsewhere (s : SessionId) : Oblivious (Act.lockedElsewhere s : Act σ Bool) := by
  intro c w c' w' h
  rw [run_lockedElsewhere h.free, run_lockedElsewhere h.free']
  exact ⟨rfl, h.bare, rfl, rfl⟩

/-- What is read of the world must not depend on what is hidden. -/
theorem get {f : World σ → Act σ β} (hf : ∀ w, f w.bare = f w) (ha : ∀ w, Oblivious (f w)) :
    Oblivious (get >>= f) := by
  intro c w c' w' h
  have heq : f w = f w' := by rw [← hf w, ← hf w', h.bare]
  change Akin w w' (run (f w) c w) (run (f w') c' w')
  rw [heq]
  exact ha w' h

theorem modifySession {s : SessionId} {m : Session → Session}
    (hm : ∀ x, (m x).bare = (m x.bare).bare) (hkept : ∀ x, (m x).hidden = x.hidden) :
    Oblivious (Act.modifySession s m : Act σ Unit) := by
  intro c w c' w' h
  have hhidden (w : World σ) : (w.withSession s m).hidden = w.hidden := by
    funext t
    rw [World.hidden_withSession id hkept, Option.map_id_fun, id, ite_self]
  change Akin w w' (Except.ok (), w.withSession s m) (Except.ok (), w'.withSession s m)
  refine ⟨rfl, ?_, hhidden w, hhidden w'⟩
  change (w.withSession s m).bare = (w'.withSession s m).bare
  rw [World.bare_withSession (fun x => (m x).bare) hm, World.bare_withSession (fun x => (m x).bare) hm,
    h.bare]

theorem setStore (st : StoreId) (x : BreakpointStore Listener) :
    Oblivious (Act.setStore st x : Act σ Unit) := by
  intro c w c' w' h
  refine ⟨rfl, ?_, rfl, rfl⟩
  exact congrArg (fun w : World σ => { w with stores := w.stores.setIfInBounds st.index x }) h.bare

theorem newStore : Oblivious (Act.newStore : Act σ StoreId) := by
  intro c w c' w' h
  have hstores := congrArg World.stores h.bare
  refine ⟨?_, ?_, rfl, rfl⟩
  · exact congrArg (fun xs : Array (BreakpointStore Listener) =>
      (Except.ok ⟨xs.size⟩ : Except Panic StoreId)) hstores
  · exact congrArg (fun w : World σ => { w with stores := w.stores.push {} }) h.bare

theorem modifyHost (f : σ → σ) : Oblivious (Act.modifyHost f : Act σ Unit) := by
  intro c w c' w' h
  exact ⟨rfl, congrArg (fun w : World σ => { w with host := f w.host }) h.bare, rfl, rfl⟩

theorem transition (s : SessionId) (t : Transition) :
    Oblivious (Act.transition s t : Act σ Unit) :=
  modifySession (fun _ => rfl) fun _ => rfl

theorem isAdjusting (s : SessionId) : Oblivious (s.isAdjusting : Act σ Bool) := by
  apply entering
  intro c w c' w' h
  have hopen := congrArg Prod.snd (h.sees_session s)
  exact ⟨congrArg Except.ok hopen, h.bare, rfl, rfl⟩

theorem run_editing (s : SessionId) (a : Act σ α) (c : Scope) (w : World σ) :
    run (s.editing a) c w =
      ((run a c (w.beginEdit s c.thread)).1,
        (run a c (w.beginEdit s c.thread)).2.endEdit s c.thread) := by
  change run (Act.followedBy a (s.modifyBindings (·.endEdit c.thread))) c
    (w.beginEdit s c.thread) = _
  simp only [Act.followedBy]
  rw [run_bind, run_outcome]
  rcases run a c _ with ⟨p | x, w'⟩ <;> rfl

theorem editing {s : SessionId} (ha : Oblivious a) : Oblivious (s.editing a) := by
  intro c w c' w' h
  have hr := ha (h.beginEdit s)
  have hbare (w : World σ) (t : Thread) : (w.endEdit s t).bare = w.bare :=
    World.bare_withSession_eq fun _ => rfl
  rw [run_editing, run_editing]
  refine ⟨hr.answer, ?_, World.hidden_endEdit hr.kept, World.hidden_endEdit hr.kept'⟩
  rw [hbare, hbare]
  exact hr.bare

end Act.Oblivious

end DebugSession
