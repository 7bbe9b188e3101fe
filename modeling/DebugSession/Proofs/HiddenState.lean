import DebugSession.Proofs.Run

namespace DebugSession

/-- What programs cannot tell of a session: where its commands run, which of them wait and what came
of those that ran. `openEdits` belongs here as long as all scopes that are opened are closed. -/
structure HiddenState where
  held : Bool
  dispatch : Dispatch
  queue : CommandQueue
  faults : List SessionError
  openEdits : List Thread

namespace Session

def hidden (x : Session) : HiddenState :=
  ⟨x.held, x.config.dispatch, x.queue, x.faults, x.bindings.openEdits⟩

def bare (x : Session) : Session :=
  { x with
    held := true
    config := { x.config with dispatch := .worker }
    queue := {}
    faults := []
    bindings := { x.bindings with openEdits := [] } }

theorem eq_of_bare_hidden {x y : Session} (hbare : x.bare = y.bare)
    (hhidden : x.hidden = y.hidden) :
    x = y := by
  rcases x with ⟨⟨_, _, _, _, _⟩, _, _, _, _, _, _, _, _, ⟨_, _, _⟩, _, _, _, _, _, _, _⟩
  rcases y with ⟨⟨_, _, _, _, _⟩, _, _, _, _, _, _, _, _, ⟨_, _, _⟩, _, _, _, _, _, _, _⟩
  simp only [bare, hidden, Session.mk.injEq, SessionConfig.mk.injEq, BindingTable.mk.injEq,
    HiddenState.mk.injEq, true_and, and_true] at hbare hhidden ⊢
  exact ⟨by simp_all, by simp_all⟩

end Session

namespace World

variable {σ : Type}

def hidden (w : World σ) (s : SessionId) : Option HiddenState :=
  w.sessions[s.index]?.map Session.hidden

def bare (w : World σ) : World σ := { w with sessions := w.sessions.map Session.bare }

theorem bare_getElem? (w : World σ) (i : Nat) :
    w.bare.sessions[i]? = w.sessions[i]?.map Session.bare :=
  Array.getElem?_map

theorem eq_of_bare_hidden {w w' : World σ} (hbare : w.bare = w'.bare)
    (hhidden : w.hidden = w'.hidden) :
    w = w' := by
  have hsessions : w.sessions = w'.sessions := by
    apply Array.ext_getElem?
    intro i
    have hi : w.bare.sessions[i]? = w'.bare.sessions[i]? := by rw [hbare]
    have hi' : w.hidden ⟨i⟩ = w'.hidden ⟨i⟩ := by rw [hhidden]
    rw [bare_getElem?, bare_getElem?] at hi
    simp only [hidden] at hi'
    cases hx : w.sessions[i]? with
    | none =>
        rw [hx] at hi
        exact (Option.map_eq_none_iff.mp hi.symm).symm
    | some x =>
        rw [hx] at hi hi'
        obtain ⟨y, hy, hxy⟩ := Option.map_eq_some_iff.mp hi.symm
        rw [hy] at hi' ⊢
        exact congrArg some (Session.eq_of_bare_hidden hxy.symm (Option.some.inj hi'))
  cases w
  cases w'
  simp only [bare, World.mk.injEq] at hbare hsessions ⊢
  exact ⟨hbare.1, hsessions, hbare.2.2⟩

variable {w : World σ} {s : SessionId} {m : Session → Session}

theorem withSession_id (hm : ∀ x, m x = x) : w.withSession s m = w := by
  have hsessions : (w.withSession s m).sessions = w.sessions := by
    apply Array.ext_getElem?
    intro i
    have hid : m = id := funext hm
    rw [withSession_getElem?, hid, Option.map_id_fun, id, ite_self]
  cases w
  simp only [withSession, World.mk.injEq, true_and, and_true] at hsessions ⊢
  exact hsessions

/-- A change that is made alike whatever is hidden. -/
theorem bare_withSession (n : Session → Session) (hm : ∀ x, (m x).bare = n x.bare) :
    (w.withSession s m).bare = w.bare.withSession s n := by
  have hsessions : (w.withSession s m).bare.sessions = (w.bare.withSession s n).sessions := by
    apply Array.ext_getElem?
    intro i
    rw [bare_getElem?, withSession_getElem?, withSession_getElem?, bare_getElem?]
    split
    · simp only [Option.map_map]
      exact congrArg (Option.map · w.sessions[i]?) (funext hm)
    · rfl
  simp only [withSession, bare, World.mk.injEq, true_and, and_true] at hsessions ⊢
  exact hsessions

/-- A change of what is hidden and of nothing else. -/
theorem bare_withSession_eq (hm : ∀ x, (m x).bare = x.bare) : (w.withSession s m).bare = w.bare :=
  (bare_withSession id hm).trans (withSession_id fun _ => rfl)

theorem hidden_withSession (g : HiddenState → HiddenState) (hm : ∀ x, (m x).hidden = g x.hidden)
    (t : SessionId) :
    (w.withSession s m).hidden t = if s = t then (w.hidden t).map g else w.hidden t := by
  rw [hidden, withSession_getElem?]
  have hindex : s.index = t.index ↔ s = t := by
    cases s
    cases t
    simp
  simp only [hindex, hidden]
  split
  · simp only [Option.map_map]
    exact congrArg (Option.map · w.sessions[t.index]?) (funext hm)
  · rfl

end World

def Scope.sees (c : Scope) (s : SessionId) (g : HiddenState) : Bool × Bool :=
  (g.held || !g.queue.isIdle || c.entered.contains s, g.openEdits.contains c.thread)

/-- No lock is held by a thread that does not run. -/
def Scope.Free (c : Scope) : Prop := ∀ l ∈ c.locks, l.2 = c.thread

/-- Two worlds that a program cannot tell apart, each from within its own scope. -/
structure Alike {σ : Type} (c : Scope) (w : World σ) (c' : Scope) (w' : World σ) : Prop where
  bare : w.bare = w'.bare
  sees : ∀ s, (w.hidden s).map (c.sees s) = (w'.hidden s).map (c'.sees s)
  free : c.Free
  free' : c'.Free

structure Akin {σ α : Type} (w w' : World σ) (r r' : Except Panic α × World σ) : Prop where
  answer : r.1 = r'.1
  bare : r.2.bare = r'.2.bare
  kept : r.2.hidden = w.hidden
  kept' : r'.2.hidden = w'.hidden

def Act.Oblivious {σ α : Type} (a : Act σ α) : Prop :=
  ∀ ⦃c w c' w'⦄, Alike c w c' w' → Akin w w' (run a c w) (run a c' w')

namespace Alike

variable {σ : Type} {c c' : Scope} {w w' w₁ w₁' : World σ}

theorem after (h : Alike c w c' w') (hbare : w₁.bare = w₁'.bare) (hkept : w₁.hidden = w.hidden)
    (hkept' : w₁'.hidden = w'.hidden) : Alike c w₁ c' w₁' := by
  refine ⟨hbare, fun s => ?_, h.free, h.free'⟩
  rw [hkept, hkept']
  exact h.sees s

/-- Where there is no session, both programs read the same default. -/
theorem sees_session (h : Alike c w c' w') (s : SessionId) :
    c.sees s (w.sessions.getD s.index default).hidden =
      c'.sees s (w'.sessions.getD s.index default).hidden := by
  have hsees := h.sees s
  simp only [World.hidden] at hsees
  rw [Array.getD_eq_getD_getElem?, Array.getD_eq_getD_getElem?]
  cases hx : w.sessions[s.index]? with
  | none =>
      rw [hx] at hsees
      simp only [Option.map_none, eq_comm (a := none), Option.map_eq_none_iff] at hsees
      rw [hsees]
      rfl
  | some x =>
      rw [hx] at hsees
      cases hy : w'.sessions[s.index]? with
      | none =>
          rw [hy] at hsees
          cases hsees
      | some y =>
          rw [hy] at hsees
          exact Option.some.inj hsees

theorem keeping (h : Alike c w c' w') (s : SessionId) :
    Alike { c with entered := s :: c.entered } w { c' with entered := s :: c'.entered } w' := by
  have hsees (c : Scope) (t : SessionId) (g : HiddenState) :
      Scope.sees { c with entered := s :: c.entered } t g =
        ((c.sees t g).1 || t == s, (c.sees t g).2) := by
    simp only [Scope.sees, List.contains_cons, Bool.or_comm (t == s), Bool.or_assoc]
  refine ⟨h.bare, fun t => ?_, h.free, h.free'⟩
  have ht := congrArg (Option.map fun p : Bool × Bool => (p.1 || t == s, p.2)) (h.sees t)
  simp only [Option.map_map] at ht
  simp only [funext (hsees c t), funext (hsees c' t)]
  exact ht

theorem locked (h : Alike c w c' w') (s : SessionId) :
    Alike { c with locks := (s, c.thread) :: c.locks } w
      { c' with locks := (s, c'.thread) :: c'.locks } w' := by
  refine ⟨h.bare, h.sees, ?_, ?_⟩
  · rintro l (_ | ⟨_, hl⟩)
    · rfl
    · exact h.free l hl
  · rintro l (_ | ⟨_, hl⟩)
    · rfl
    · exact h.free' l hl

end Alike

theorem Akin.alike {σ α : Type} {c c' : Scope} {w w' : World σ} {r r' : Except Panic α × World σ}
    (hr : Akin w w' r r') (h : Alike c w c' w') : Alike c r.2 c' r'.2 :=
  h.after hr.bare hr.kept hr.kept'

theorem Akin.trans {σ α β : Type} {w w' : World σ} {r r' : Except Panic α × World σ}
    {q q' : Except Panic β × World σ} (hr : Akin w w' r r') (hq : Akin r.2 r'.2 q q') :
    Akin w w' q q' :=
  ⟨hq.answer, hq.bare, hq.kept.trans hr.kept, hq.kept'.trans hr.kept'⟩

end DebugSession
