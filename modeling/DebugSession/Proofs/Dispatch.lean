import DebugSession.Proofs.Acceptance
import DebugSession.Proofs.Scripted

namespace DebugSession

structure Call where
  session : SessionId
  thread : Thread
  operation : Operation

def Operation.refused : (o : Operation) → Except Panic o.Answer → List SessionError
  | .command k, .ok (.error e) =>
    match k.check with
    | .ok _ => [e]
    | .error _ => []
  | _, _ => []

def SessionError.isPanic : SessionError → Bool
  | .workerPanicked _ _ => true
  | _ => false

namespace Call

variable {σ : Type} (h : Host σ) (w : World σ) (x : Call)

def result : Except Panic x.operation.Answer × World σ :=
  Act.run (x.operation.perform h x.session) ⟨x.thread, [], []⟩ w

def answer : Except Panic x.operation.Answer := (x.result h w).1

/-- After the call, a worker carries out what the session has queued. -/
def after : World σ :=
  let w' := (x.result h w).2
  Turn.afterAll h x.session w'
    (List.replicate (w'.session x.session).queue.waiting.length .work)

def failures : List SessionError :=
  ((x.after h w).session x.session).faults.drop (w.session x.session).faults.length

def Panics (w : World σ) (x : Call) : Prop := (x.failures h w).any (·.isPanic) = true

instance : Decidable (Panics h w x) :=
  inferInstanceAs (Decidable ((x.failures h w).any (·.isPanic) = true))

def refusals : World σ → List Call → List (SessionId × SessionError)
  | _, [] => []
  | w, x :: rest =>
    (x.operation.refused (x.answer h w)).map (x.session, ·) ++ refusals (x.after h w) rest

end Call

namespace World

variable {σ : Type} {w w' : World σ} {s : SessionId}

def dispatching (d : Dispatch) (w : World σ) : World σ :=
  { w with sessions := w.sessions.map fun x => { x with config := { x.config with dispatch := d } } }

structure Direct (w : World σ) : Prop where
  resting : w.Resting
  inline : ∀ s, ∀ g ∈ w.hidden s, g.dispatch = .inline

theorem Direct.of_hidden (hw : w.Direct) (hhidden : w'.hidden = w.hidden) : w'.Direct := by
  refine ⟨hw.resting.of_hidden hhidden, ?_⟩
  rw [hhidden]
  exact hw.inline

theorem hidden_dispatching (d : Dispatch) (w : World σ) (t : SessionId) :
    (w.dispatching d).hidden t = (w.hidden t).map fun g => { g with dispatch := d } := by
  simp only [hidden, dispatching, Array.getElem?_map, Option.map_map]
  rfl

theorem dispatching_worker (w : World σ) :
    w.dispatching .worker = (w.dispatching .inline).deferring [] := by
  apply eq_of_bare_hidden
  · rw [bare_deferring]
    simp only [bare, dispatching, Array.map_map]
    rfl
  · funext t
    rw [hidden_deferring, hidden_dispatching, hidden_dispatching, Option.map_map]
    simp [HiddenState.deferring, SessionId.failures, Function.comp_def]

theorem Resting.direct (hrest : w.Resting) : (w.dispatching .inline).Direct := by
  constructor
  · intro s g' hg'
    rw [hidden_dispatching] at hg'
    obtain ⟨g, hg, rfl⟩ := Option.map_eq_some_iff.mp hg'
    exact hrest s g hg
  · intro s g' hg'
    rw [hidden_dispatching] at hg'
    obtain ⟨g, hg, rfl⟩ := Option.map_eq_some_iff.mp hg'
    rfl

theorem Holds.dispatching (hheld : w.Holds s) (d : Dispatch) : (w.dispatching d).Holds s := by
  obtain ⟨g, hg, hheld⟩ := hheld
  refine ⟨{ g with dispatch := d }, ?_, hheld⟩
  rw [hidden_dispatching, hg]
  rfl

end World

namespace Call

open World

variable {σ : Type} {h : Host σ} {w : World σ} {kept : List (SessionId × SessionError)}

theorem after_of_idle {x : Call} (hidle : ((x.result h w).2.session x.session).queue = {}) :
    x.after h w = (x.result h w).2 := by
  simp only [after, hidle]
  rfl

theorem after_of_waiting {x : Call} {k : Command}
    (hwaiting : ((x.result h w).2.session x.session).queue = ⟨[k], []⟩) :
    x.after h w =
      (Act.run (x.session.workNext h) ⟨.worker x.session, [], []⟩ (x.result h w).2).2 := by
  simp only [after, hwaiting]
  rfl

/-- What a caller is told where callers do the work, what it is told where workers do, and what
those keep of it. -/
inductive Told : (o : Operation) → Except Panic o.Answer → Except Panic o.Answer →
    List SessionError → Prop
  | same (o : Operation) (r : Except Panic o.Answer) (hr : o.refused r = []) : Told o r r []
  | refused (k : Command) (hk : k.check = .ok ()) (e : SessionError) :
    Told (.command k) (.ok (.error e)) (.ok (.ok ())) [e]
  | panicked (k : Command) (p : Panic) :
    Told (.command k) (.error p) (.ok (.ok ())) [.workerPanicked k.name p.message]

namespace Told

variable {o : Operation} {r r' : Except Panic o.Answer} {es : List SessionError}

theorem eq_refused (htold : Told o r r' es) (hes : es.any (·.isPanic) = false) :
    es = o.refused r := by
  cases htold with
  | same o r hr => exact hr.symm
  | refused k hk e => simp only [Operation.refused, hk]
  | panicked k p => cases hes

theorem eq_of_nil (htold : Told o r r' []) : r' = r := by
  cases htold
  rfl

theorem error_iff {k : Command} (hk : k.check = .ok ())
    {r r' : Except Panic (Except SessionError Unit)} (htold : Told (.command k) r r' es)
    (hes : es.any (·.isPanic) = false) (e : SessionError) :
    r = .ok (.error e) ↔ r' = .ok (.ok ()) ∧ es = [e] := by
  cases htold with
  | same _ _ hr =>
      constructor
      · rintro rfl
        simp only [Operation.refused, hk] at hr
        cases hr
      · rintro ⟨-, hes⟩
        cases hes
  | refused _ _ e' => simp
  | panicked _ p => cases hes

end Told

structure Matched (h : Host σ) (w : World σ) (kept : List (SessionId × SessionError)) (x : Call)
    (es : List SessionError) : Prop where
  hidden : (x.after h w).hidden = w.hidden
  after : x.after h (w.deferring kept) = (x.after h w).deferring (kept ++ es.map (x.session, ·))
  told : Told x.operation (x.answer h w) (x.answer h (w.deferring kept)) es

/-- Nothing is left to a worker. -/
theorem matched_at_once {x : Call} (hrest : w.Resting)
    {r : Except Panic x.operation.Answer × World σ} (hr : x.result h w = r)
    (hhidden : r.2.hidden = w.hidden)
    (hdeferring : x.result h (w.deferring kept) = (r.1, r.2.deferring kept))
    (hrefused : x.operation.refused r.1 = []) : Matched h w kept x [] := by
  have hrest' : r.2.Resting := hrest.of_hidden hhidden
  have hafter : x.after h w = r.2 := by
    rw [after_of_idle] <;> rw [hr]
    exact hrest'.queue x.session
  have hafter' : x.after h (w.deferring kept) = r.2.deferring kept := by
    rw [after_of_idle] <;> rw [hdeferring]
    exact hrest'.deferring.queue x.session
  refine ⟨hafter ▸ hhidden, ?_, ?_⟩
  · rw [hafter, hafter', List.map_nil, List.append_nil]
  · rw [answer, answer, hr, hdeferring]
    exact .same _ _ hrefused

theorem refused_of_ne {o : Operation} (ho : ∀ k, o ≠ .command k) (r : Except Panic o.Answer) :
    o.refused r = [] := by
  cases o with
  | command k => exact absurd rfl (ho k)
  | _ => rfl

theorem matched_of_ne (unaware : h.Unaware) (hrest : w.Resting) {x : Call}
    (ho : ∀ k, x.operation ≠ .command k) : Matched h w kept x [] := by
  have hfree : Scope.Free ⟨x.thread, [], []⟩ := by simp [Scope.Free]
  have hakin := unaware.perform x.session ho (Alike.deferring hfree w kept)
  exact matched_at_once hrest rfl hakin.kept hakin.deferring (refused_of_ne ho _)

/-- The body runs at once on the thread of the caller, or later on that of a worker. -/
theorem matched_handOver (unaware : h.Unaware) (hrest : w.Resting) {s : SessionId} {t : Thread}
    {k : Command} (hk : k.check = .ok ()) {w' : World σ} (hkept : w'.hidden = w.hidden)
    (hheld : w.Holds s)
    (hr : result h w ⟨s, t, .command k⟩ = Act.run (s.handOver h k .inline) (s.within t) w')
    (hr' : result h (w.deferring kept) ⟨s, t, .command k⟩ =
      Act.run (s.handOver h k .worker) (s.within t) (w'.deferring kept)) :
    ∃ es, Matched h w kept ⟨s, t, .command k⟩ es := by
  have hrest' : w'.Resting := hrest.of_hidden hkept
  have hheld' : w'.Holds s := hheld.of_hidden hkept
  rcases hbody : Act.run (s.execute h k) (s.within t) w' with ⟨r, w₁⟩
  obtain ⟨hhidden, hdone⟩ := unaware.run_workNext hrest' hheld' k kept t hbody
  have hresult : result h w ⟨s, t, .command k⟩ = (r, w₁) := hr.trans hbody
  have hresult' : result h (w.deferring kept) ⟨s, t, .command k⟩ =
      (.ok (.ok ()), (w'.deferring kept).accept s k) := hr'
  have hafter : after h w ⟨s, t, .command k⟩ = w₁ := by
    rw [after_of_idle] <;> rw [hresult]
    exact (hrest'.of_hidden hhidden).queue s
  have hafter' : after h (w.deferring kept) ⟨s, t, .command k⟩ =
      w₁.deferring (kept ++ (SessionId.unhandled k r).map (s, ·)) := by
    rw [after_of_waiting (k := k)] <;> rw [hresult']
    · exact hdone
    · exact hrest'.deferring.queue_accept hheld'.deferring
  refine ⟨SessionId.unhandled k r, ?_, ?_, ?_⟩
  · rw [hafter]
    exact hhidden.trans hkept
  · rw [hafter, hafter']
  · simp only [answer]
    rw [hresult, hresult']
    rcases r with p | (e | u)
    · exact .panicked k p
    · exact .refused k hk e
    · exact .same _ _ rfl

theorem matched_command (unaware : h.Unaware) (hw : w.Direct) {s : SessionId} (hheld : w.Holds s)
    (t : Thread) (k : Command) : ∃ es, Matched h w kept ⟨s, t, .command k⟩ es := by
  cases hk : k.check with
  | error e =>
      refine ⟨[], matched_at_once hw.resting (s.run_command_of_error h hk _ w) rfl
        (s.run_command_of_error h hk _ _) ?_⟩
      simp only [Operation.refused, hk]
  | ok u =>
      obtain ⟨g, hg, hsession⟩ := hheld.session
      have hinline : (w.session s).config.dispatch = .inline :=
        (congrArg HiddenState.dispatch hsession).trans (hw.inline s g hg)
      have hworker : ((w.deferring kept).session s).config.dispatch = .worker := by
        have hhidden := (w.deferring kept).hidden_session s
        rw [hidden_deferring, hg] at hhidden
        exact congrArg HiddenState.dispatch hhidden
      have hr := s.run_command h hk hheld t
      have hheld' : (w.deferring kept).Holds s := hheld.deferring
      have hr' := s.run_command h hk hheld' t
      have hakin := unaware.takeIn s k (Alike.deferring (s.inside_free t) w kept)
      have hkept := hakin.kept
      rw [hinline] at hr
      rw [hworker, hakin.deferring] at hr'
      rcases hrun : Act.run (s.takeIn h k) (s.inside t) w with ⟨p | (_ | _), w'⟩
      · rw [hrun] at hr hr' hkept
        exact ⟨[], matched_at_once hw.resting hr hkept hr' rfl⟩
      · rw [hrun] at hr hr' hkept
        exact ⟨[], matched_at_once hw.resting hr hkept hr' rfl⟩
      · rw [hrun] at hr hr' hkept
        exact matched_handOver unaware hw.resting hk hkept hheld hr hr'

theorem matched (unaware : h.Unaware) (hw : w.Direct) {x : Call} (hheld : w.Holds x.session) :
    ∃ es, Matched h w kept x es := by
  by_cases ho : ∃ k, x.operation = .command k
  · obtain ⟨s, t, o⟩ := x
    obtain ⟨k, rfl⟩ := ho
    exact matched_command unaware hw hheld t k
  · exact ⟨[], matched_of_ne unaware hw.resting fun k hk => ho ⟨k, hk⟩⟩

namespace Matched

variable {x : Call} {es : List SessionError}

theorem failures (hx : Matched h w kept x es) (hheld : w.Holds x.session) :
    x.failures h (w.deferring kept) = es := by
  obtain ⟨g, hg, -⟩ := hheld
  rw [Call.failures, faults_session, faults_session, hx.after, hidden_deferring, hidden_deferring,
    hx.hidden, hg, SessionId.failures_append, if_pos rfl]
  simp [HiddenState.deferring, ← List.append_assoc]

theorem not_panicked (hx : Matched h w kept x es) (hheld : w.Holds x.session)
    (hpanics : ¬ Panics h (w.deferring kept) x) : es.any (·.isPanic) = false := by
  rw [Panics, hx.failures hheld] at hpanics
  exact Bool.eq_false_iff.mpr hpanics

end Matched

/-- Over a whole run, workers keep just what callers are told of, in the same order. -/
theorem foldl_deferring (unaware : h.Unaware) (hw : w.Direct) (kept : List (SessionId × SessionError))
    {calls : List Call} (hheld : ∀ x ∈ calls, w.Holds x.session)
    (hpanics : Nowhere (after h) (Panics h) (w.deferring kept) calls) :
    (calls.foldl (after h) w).hidden = w.hidden ∧
      calls.foldl (after h) (w.deferring kept) =
        (calls.foldl (after h) w).deferring (kept ++ refusals h w calls) := by
  induction calls generalizing w kept with
  | nil =>
      refine ⟨rfl, ?_⟩
      simp only [List.foldl_nil, refusals, List.append_nil]
  | cons x rest ih =>
      have hx := hheld x List.mem_cons_self
      obtain ⟨es, hmatched⟩ := matched unaware hw hx
      have hes := hmatched.told.eq_refused (hmatched.not_panicked hx hpanics.1)
      have hrest := hpanics.2
      rw [hmatched.after] at hrest
      obtain ⟨hhidden, hfoldl⟩ := ih (hw.of_hidden hmatched.hidden) _
        (fun y hy => (hheld y (List.mem_cons_of_mem x hy)).of_hidden hmatched.hidden) hrest
      refine ⟨hhidden.trans hmatched.hidden, ?_⟩
      rw [List.foldl_cons, List.foldl_cons, hmatched.after, hfoldl, refusals, List.append_assoc, hes]

end Call

open Call in
/-- Callers may carry out their commands, or workers: but for where failures go, the two runs are
the same, and so is all that the host was called for. -/
theorem dispatch_agrees {σ : Type} (conduct : Conduct σ) (rest : Host (Journaled σ)) (n : Nat)
    {w : World (Journaled σ)} (hrest : w.Resting) {calls : List Call}
    (hheld : ∀ x ∈ calls, w.Holds x.session)
    (hpanics : Nowhere (Call.after (conduct.host rest n)) (Panics (conduct.host rest n))
      (w.dispatching .worker) calls) :
    let h := conduct.host rest n
    let direct := calls.foldl (Call.after h) (w.dispatching .inline)
    let queued := calls.foldl (Call.after h) (w.dispatching .worker)
    queued = direct.deferring (refusals h (w.dispatching .inline) calls) ∧
    (∀ x : Call, (∀ k, x.operation ≠ .command k) → x.answer h queued = x.answer h direct) ∧
    (∀ s t k, w.Holds s → k.check = .ok () → ¬ Panics h queued ⟨s, t, .command k⟩ → ∀ e,
      answer h direct ⟨s, t, .command k⟩ = .ok (.error e) ↔
        answer h queued ⟨s, t, .command k⟩ = .ok (.ok ()) ∧
          failures h queued ⟨s, t, .command k⟩ = [e]) ∧
    ∀ s t k e, k.check = .error e →
      result h direct ⟨s, t, .command k⟩ = (.ok (.error e), direct) ∧
        result h queued ⟨s, t, .command k⟩ = (.ok (.error e), queued) := by
  intro h direct queued
  have unaware : h.Unaware := conduct.unaware rest n
  have hdirect := hrest.direct
  rw [World.dispatching_worker] at hpanics
  obtain ⟨hhidden, hqueued⟩ := foldl_deferring unaware hdirect []
    (fun x hx => (hheld x hx).dispatching .inline) hpanics
  rw [← World.dispatching_worker, List.nil_append] at hqueued
  change queued = direct.deferring _ at hqueued
  have hdirect' : direct.Direct := hdirect.of_hidden hhidden
  refine ⟨hqueued, ?_, ?_, ?_⟩
  · intro x ho
    rw [hqueued]
    exact (matched_of_ne unaware hdirect'.resting ho).told.eq_of_nil
  · intro s t k hs hk hpanics' e
    have hs' : direct.Holds s := (hs.dispatching .inline).of_hidden hhidden
    obtain ⟨es, hmatched⟩ := matched_command unaware hdirect' hs' t k
    rw [hqueued] at hpanics' ⊢
    rw [hmatched.failures hs']
    exact hmatched.told.error_iff hk (hmatched.not_panicked hs' hpanics') e
  · intro s t k e hk
    exact ⟨s.run_command_of_error h hk _ direct, s.run_command_of_error h hk _ queued⟩

namespace Scripted

def stalling : Conduct Simulation.Memory
  | .answer s (.command .proceed) =>
    .perform s (.targetEvent { kind := .stopped }) (fun _ ho => nomatch ho) fun _ =>
      .done (.error .notRunning)
  | .answer _ q => .done (willing [] q)
  | .allowsChanges _ => .done true
  | .resolveExpression _ _ _ => .done (.ok none)
  | .vetoes _ _ | .handleFault _ _ | .customHit _ _ _ => .done false
  | .resolveType _ _ _ | .provideEvaluator _ _ => .done none
  | .observe _ _ _ | .storeChanged _ _ _ | .write _ _ _ | .trace _ _ _ => .done ()

def watched : World (Journaled Simulation.Memory) :=
  { host := (default, [])
    sessions := #[{ Session.new {} ⟨0⟩ with
      observers := (({} : Observers CallbackId).subscribe none ⟨0⟩).2
      handlers := { fault := some ⟨1⟩ } }]
    routers := #[{}] }

def stalled : List Call :=
  [.breakpoints, .edit ⟨0⟩ (.add (breakpoint 1 10)), .command (.run ⟨"app", [], none, []⟩ {}),
    .started none, .command .proceed, .phase].map (⟨self, .caller 0, ·⟩)

end Scripted

theorem dispatch_agrees_on_stalling :
    let h := Scripted.stalling.host (Simulation.host default) 3
    let direct := Scripted.stalled.foldl (Call.after h) (Scripted.watched.dispatching .inline)
    let queued := Scripted.stalled.foldl (Call.after h) (Scripted.watched.dispatching .worker)
    (direct.session Scripted.self).faults = [] ∧ direct.host.2.length = 13 ∧
      queued = direct.deferring [(Scripted.self, .command "continue" .notRunning)] := by
  have hrest : Scripted.watched.Resting := by
    rintro ⟨_ | n⟩ g hg
    · cases hg
      exact ⟨rfl, rfl⟩
    · cases hg
  have hheld : ∀ x ∈ Scripted.stalled, Scripted.watched.Holds x.session := by
    intro x hx
    obtain ⟨o, -, rfl⟩ := List.mem_map.mp hx
    exact ⟨_, rfl, rfl⟩
  have hpanics : Nowhere (Call.after (Scripted.stalling.host (Simulation.host default) 3))
      (Call.Panics (Scripted.stalling.host (Simulation.host default) 3))
      (Scripted.watched.dispatching .worker) Scripted.stalled :=
    ⟨by decide +kernel, by decide +kernel, by decide +kernel, by decide +kernel, by decide +kernel,
      by decide +kernel, trivial⟩
  have hrefusals : Call.refusals (Scripted.stalling.host (Simulation.host default) 3)
      (Scripted.watched.dispatching .inline) Scripted.stalled =
        [(Scripted.self, .command "continue" .notRunning)] := by decide +kernel
  have hagrees :=
    (dispatch_agrees Scripted.stalling (Simulation.host default) 3 hrest hheld hpanics).1
  rw [hrefusals] at hagrees
  exact ⟨by decide +kernel, by decide +kernel, hagrees⟩

end DebugSession
