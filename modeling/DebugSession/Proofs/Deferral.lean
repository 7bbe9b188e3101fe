import DebugSession.Proofs.Conduct
import DebugSession.Proofs.Sound

namespace DebugSession

def SessionId.failures (s : SessionId) (kept : List (SessionId × SessionError)) :
    List SessionError :=
  (kept.filter (·.1 == s)).map (·.2)

theorem SessionId.failures_append (s t : SessionId) (kept : List (SessionId × SessionError))
    (es : List SessionError) :
    t.failures (kept ++ es.map (s, ·)) = t.failures kept ++ if s = t then es else [] := by
  simp only [failures, List.filter_append, List.map_append, List.filter_map]
  by_cases hst : s = t
  · subst hst
    simp [Function.comp_def]
  · simp [hst, Function.comp_def]

def HiddenState.deferring (g : HiddenState) (kept : List SessionError) : HiddenState :=
  { g with dispatch := .worker, faults := g.faults ++ kept }

namespace World

variable {σ : Type}

/-- Workers in place of callers, and failures kept that callers are told of. -/
def deferring (w : World σ) (kept : List (SessionId × SessionError)) : World σ :=
  { w with
    sessions := w.sessions.mapIdx fun i x =>
      { x with
        config := { x.config with dispatch := .worker }
        faults := x.faults ++ SessionId.failures ⟨i⟩ kept } }

def Resting (w : World σ) : Prop := ∀ s, ∀ g ∈ w.hidden s, g.queue = {} ∧ g.openEdits = []

def Holds (w : World σ) (s : SessionId) : Prop := ∃ g ∈ w.hidden s, g.held = true

def accept (w : World σ) (s : SessionId) (k : Command) : World σ :=
  w.withSession s fun x => { x with queue := x.queue.accept k }

def take (w : World σ) (s : SessionId) (k : Command) : World σ :=
  w.withSession s fun x => { x with queue := ⟨[], [k]⟩ }

def keep (w : World σ) (s : SessionId) (es : List SessionError) : World σ :=
  w.withSession s fun x => { x with faults := x.faults ++ es }

def finish (w : World σ) (s : SessionId) (k : Command) : World σ :=
  w.withSession s fun x => { x with queue := x.queue.finish k }

variable (w : World σ) (s t : SessionId) (k : Command) (kept : List (SessionId × SessionError))

theorem hidden_session : (w.session s).hidden = (w.hidden s).getD (default : Session).hidden := by
  rw [session, hidden, Array.getD_eq_getD_getElem?]
  cases w.sessions[s.index]? <;> rfl

theorem faults_session :
    (w.session s).faults = ((w.hidden s).getD (default : Session).hidden).faults :=
  congrArg HiddenState.faults (w.hidden_session s)

theorem bare_deferring : (w.deferring kept).bare = w.bare := by
  simp only [bare, deferring, World.mk.injEq, true_and, and_true]
  apply Array.ext_getElem?
  intro i
  simp only [Array.getElem?_map, Array.getElem?_mapIdx, Option.map_map]
  rfl

theorem hidden_deferring :
    (w.deferring kept).hidden t = (w.hidden t).map (·.deferring (t.failures kept)) := by
  simp only [hidden, deferring, Array.getElem?_mapIdx, Option.map_map]
  rfl

theorem hidden_accept : (w.accept s k).hidden t =
    if s = t then (w.hidden t).map fun g => { g with queue := g.queue.accept k } else w.hidden t :=
  hidden_withSession _ (fun _ => rfl) t

theorem hidden_take : (w.take s k).hidden t =
    if s = t then (w.hidden t).map fun g => { g with queue := ⟨[], [k]⟩ } else w.hidden t :=
  hidden_withSession (fun g => { g with queue := ⟨[], [k]⟩ }) (fun _ => rfl) t

theorem hidden_keep (es : List SessionError) : (w.keep s es).hidden t =
    if s = t then (w.hidden t).map fun g => { g with faults := g.faults ++ es } else w.hidden t :=
  hidden_withSession _ (fun _ => rfl) t

theorem hidden_finish : (w.finish s k).hidden t =
    if s = t then (w.hidden t).map fun g => { g with queue := g.queue.finish k } else w.hidden t :=
  hidden_withSession _ (fun _ => rfl) t

def takenUp : World σ := ((w.deferring kept).accept s k).take s k

theorem bare_takenUp : (w.takenUp s k kept).bare = w.bare := calc
  (w.takenUp s k kept).bare = ((w.deferring kept).accept s k).bare :=
    bare_withSession_eq fun _ => rfl
  _ = (w.deferring kept).bare := bare_withSession_eq fun _ => rfl
  _ = w.bare := bare_deferring w kept

theorem hidden_takenUp : (w.takenUp s k kept).hidden t =
    if s = t then
      (w.hidden t).map fun g => { g.deferring (t.failures kept) with queue := ⟨[], [k]⟩ }
    else (w.hidden t).map (·.deferring (t.failures kept)) := by
  rw [takenUp, hidden_take, hidden_accept, hidden_deferring]
  split
  · simp only [Option.map_map]
    rfl
  · rfl

variable {w s k kept} {w' w'' : World σ}

theorem Holds.session (hheld : w.Holds s) :
    ∃ g, w.hidden s = some g ∧ (w.session s).hidden = g := by
  obtain ⟨g, hg, -⟩ := hheld
  refine ⟨g, hg, ?_⟩
  rw [hidden_session, hg]
  rfl

theorem Holds.held (hheld : w.Holds s) : (w.session s).held = true := by
  obtain ⟨g, hg, hheld⟩ := hheld
  have hhidden := w.hidden_session s
  rw [hg] at hhidden
  exact (congrArg HiddenState.held hhidden).trans hheld

theorem Holds.deferring (hheld : w.Holds s) : (w.deferring kept).Holds s := by
  obtain ⟨g, hg, hheld⟩ := hheld
  refine ⟨g.deferring (s.failures kept), ?_, hheld⟩
  rw [hidden_deferring, hg]
  rfl

theorem Resting.of_hidden (hrest : w.Resting) (hhidden : w'.hidden = w.hidden) : w'.Resting := by
  intro s g hg
  rw [hhidden] at hg
  exact hrest s g hg

theorem Holds.of_hidden (hheld : w.Holds s) (hhidden : w'.hidden = w.hidden) : w'.Holds s := by
  obtain ⟨g, hg, hheld⟩ := hheld
  refine ⟨g, ?_, hheld⟩
  rw [hhidden]
  exact hg

theorem Resting.queue (hrest : w.Resting) (s : SessionId) : (w.session s).queue = {} := by
  have hhidden := congrArg HiddenState.queue (w.hidden_session s)
  cases hg : w.hidden s with
  | none =>
      rw [hg] at hhidden
      exact hhidden
  | some g =>
      rw [hg] at hhidden
      exact hhidden.trans (hrest s g hg).1

theorem Resting.deferring (hrest : w.Resting) : (w.deferring kept).Resting := by
  intro s g' hg'
  rw [hidden_deferring] at hg'
  obtain ⟨g, hg, rfl⟩ := Option.map_eq_some_iff.mp hg'
  exact hrest s g hg

theorem Resting.queue_accept (hrest : w.Resting) (hheld : w.Holds s) :
    ((w.accept s k).session s).queue = ⟨[k], []⟩ := by
  obtain ⟨g, hg, -⟩ := hheld
  have hhidden := congrArg HiddenState.queue ((w.accept s k).hidden_session s)
  rw [hidden_accept, if_pos rfl, hg] at hhidden
  change _ = g.queue.accept k at hhidden
  rw [(hrest s g hg).1] at hhidden
  exact hhidden

end World

open World

theorem Alike.deferring {σ : Type} {c : Scope} (hc : c.Free) (w : World σ)
    (kept : List (SessionId × SessionError)) : Alike c w c (w.deferring kept) := by
  refine ⟨(w.bare_deferring kept).symm, fun s => ?_, hc, hc⟩
  rw [hidden_deferring, Option.map_map]
  rfl

theorem Akin.deferring {σ α : Type} {w : World σ} {kept : List (SessionId × SessionError)}
    {r r' : Except Panic α × World σ} (hr : Akin w (w.deferring kept) r r') :
    r' = (r.1, r.2.deferring kept) := by
  refine Prod.ext hr.answer.symm (eq_of_bare_hidden ?_ ?_)
  · rw [bare_deferring, hr.bare]
  · funext s
    rw [hr.kept', hidden_deferring, hidden_deferring, hr.kept]

/-- To the worker it is as if the caller did its work. -/
theorem World.Resting.alike_takenUp {σ : Type} {w : World σ} {s : SessionId} (hrest : w.Resting)
    (hheld : w.Holds s) (k : Command) (kept : List (SessionId × SessionError)) {c : Scope}
    (hc : c.Free) (hentered : c.entered = [s]) :
    Alike c w ⟨.worker s, [], []⟩ (w.takenUp s k kept) := by
  refine ⟨(w.bare_takenUp s k kept).symm, fun t => ?_, hc, fun l hl => by cases hl⟩
  rw [hidden_takenUp]
  cases hg : w.hidden t with
  | none => split <;> rfl
  | some g =>
      have hopen := (hrest t g hg).2
      by_cases hst : s = t
      · subst hst
        obtain ⟨g', hg', hheld'⟩ := hheld
        obtain rfl : g' = g := Option.some.inj (hg'.symm.trans hg)
        rw [if_pos rfl]
        simp [Scope.sees, HiddenState.deferring, hheld', hopen]
      · have hts : t ≠ s := fun h => hst h.symm
        rw [if_neg hst]
        simp [Scope.sees, HiddenState.deferring, hentered, hts, hopen]

/-- The worker is done, and has kept the failures of its command. -/
theorem World.Resting.finish_keep {σ : Type} {w w' w'' : World σ} {s : SessionId} {k : Command}
    {kept : List (SessionId × SessionError)} (hrest : w.Resting) (hhidden : w'.hidden = w.hidden)
    (hhidden' : w''.hidden = (w.takenUp s k kept).hidden) (hbare : w'.bare = w''.bare)
    (es : List SessionError) : (w''.keep s es).finish s k = w'.deferring (kept ++ es.map (s, ·)) := by
  apply eq_of_bare_hidden
  · calc
      ((w''.keep s es).finish s k).bare = (w''.keep s es).bare := bare_withSession_eq fun _ => rfl
      _ = w''.bare := bare_withSession_eq fun _ => rfl
      _ = w'.bare := hbare.symm
      _ = _ := (w'.bare_deferring _).symm
  · funext t
    rw [hidden_finish, hidden_keep, hhidden', hidden_takenUp, hidden_deferring, hhidden,
      SessionId.failures_append]
    cases hg : w.hidden t with
    | none => split <;> rfl
    | some g =>
        have hqueue := (hrest t g hg).1
        by_cases hst : s = t
        · simp only [if_pos hst]
          simp [HiddenState.deferring, CommandQueue.finish, hqueue]
        · simp only [if_neg hst, List.append_nil]

end DebugSession
