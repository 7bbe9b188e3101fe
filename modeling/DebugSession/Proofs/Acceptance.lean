import DebugSession.Proofs.Deferral

namespace DebugSession

def Scope.locking (c : Scope) (s : SessionId) : Scope :=
  { c with locks := (s, c.thread) :: c.locks }

def Scope.inside (c : Scope) (s : SessionId) : Scope :=
  { c.locking s with entered := s :: c.entered }

def Session.taking (k : Command) (x : Session) : Session :=
  match k.options? with
  | none => x
  | some options => if x.lifecycle.disposed then x else { x with options := options }

namespace Session

variable (k : Command) (x : Session)

theorem hidden_taking : (x.taking k).hidden = x.hidden := by
  unfold taking
  repeat' split
  all_goals rfl

theorem lifecycle_taking : (x.taking k).lifecycle = x.lifecycle := by
  unfold taking
  repeat' split
  all_goals rfl

theorem taking_of_disposed {x : Session} (hx : x.lifecycle.disposed = true) : x.taking k = x := by
  unfold taking
  split
  · rfl
  · rw [if_pos hx]

end Session

namespace World

variable {σ : Type} {w : World σ} {s : SessionId} {m : Session → Session}

def isLive (w : World σ) (s : SessionId) (c : Scope) : Bool :=
  (w.session s).held || !(w.session s).queue.isIdle || c.entered.contains s

theorem size_withSession : (w.withSession s m).sessions.size = w.sessions.size := Array.size_modify

theorem session_of_size_le (hs : w.sessions.size ≤ s.index) : w.session s = default := by
  rw [session, Array.getD_eq_getD_getElem?, Array.getElem?_eq_none hs]
  rfl

theorem session_withSession_self (hs : s.index < w.sessions.size) :
    (w.withSession s m).session s = m (w.session s) := by
  simp only [session, Array.getD_eq_getD_getElem?, withSession_getElem?, if_true,
    Array.getElem?_eq_getElem hs, Option.map_some, Option.getD_some]

theorem session_withSession_of_ne {t : SessionId} (hst : s ≠ t) :
    (w.withSession s m).session t = w.session t := by
  have hindex : s.index ≠ t.index := fun heq => hst (congrArg SessionId.mk heq)
  simp only [session, Array.getD_eq_getD_getElem?, withSession_getElem?, if_neg hindex]

/-- What a change of one session leaves alone in it, it leaves alone in all. -/
theorem map_session_withSession {α : Type} {f : Session → α} (hm : ∀ x, f (m x) = f x)
    (t : SessionId) : f ((w.withSession s m).session t) = f (w.session t) := by
  by_cases hst : s = t
  · subst hst
    by_cases hs : s.index < w.sessions.size
    · rw [session_withSession_self hs, hm]
    · have hs' : (w.withSession s m).sessions.size ≤ s.index := by
        rw [size_withSession]
        exact Nat.le_of_not_lt hs
      rw [session_of_size_le hs', session_of_size_le (Nat.le_of_not_lt hs)]
  · rw [session_withSession_of_ne hst]

/-- No session, or one that is as it should be. -/
theorem withSession_eq_self (hm : m (w.session s) = w.session s) : w.withSession s m = w := by
  have hsessions : (w.withSession s m).sessions = w.sessions := by
    apply Array.ext_getElem?
    intro i
    rw [withSession_getElem?]
    split
    · subst i
      cases hx : w.sessions[s.index]? with
      | none => rfl
      | some x =>
          simp only [session, Array.getD_eq_getD_getElem?, hx, Option.getD_some] at hm
          rw [Option.map_some, hm]
    · rfl
  cases w
  simp only [withSession, World.mk.injEq, true_and, and_true] at hsessions ⊢
  exact hsessions

end World

theorem CommandQueue.take?_eq_some {q q' : CommandQueue} {k : Command}
    (hq : q.take? = some (k, q')) :
    q.waiting = k :: q'.waiting ∧ q'.running = q.running ++ [k] := by
  cases hwaiting : q.waiting with
  | nil =>
      simp only [take?, hwaiting] at hq
      cases hq
  | cons k' rest =>
      simp only [take?, hwaiting] at hq
      cases hq
      exact ⟨rfl, rfl⟩

namespace SessionId

open Act

variable {σ : Type} (h : Host σ) (s : SessionId)

def letIn (k : Command) : Act σ Bool := locked s do
  let x ← session s
  if k.needsLiveSession && x.lifecycle.disposed then return false
  if k.resumes then s.announceStart h
  return true

/-- Takes a command in, up to where it is handed over. -/
def takeIn (k : Command) : Act σ Bool := do
  s.takeOptions k
  s.letIn h k

def inside (t : Thread) : Scope := ⟨t, [(s, t)], [s]⟩

def within (t : Thread) : Scope := ⟨t, [(s, t), (s, t)], [s]⟩

theorem inside_free (t : Thread) : (s.inside t).Free := by simp [inside, Scope.Free]

theorem within_free (t : Thread) : (s.within t).Free := by simp [within, Scope.Free]

theorem run_session_bind {α : Type} (f : Session → Act σ α) (c : Scope) (w : World σ) :
    run (session s >>= f) c w = run (f (w.session s)) c w := rfl

theorem run_entering_of_live {α : Type} {otherwise : α} (a : Act σ α) {c : Scope} {w : World σ}
    (hlive : w.isLive s c = true) :
    run (entering s otherwise a) c w = run a { c with entered := s :: c.entered } w := by
  have hlive' : run (isLive s) c w = (.ok true, w) := congrArg (Except.ok ·, w) hlive
  rw [entering, run_bind, hlive']
  rfl

theorem run_takeOptions (k : Command) (c : Scope) (w : World σ) :
    run (s.takeOptions k) c w = (.ok (), w.withSession s (·.taking k)) := by
  unfold takeOptions Session.taking
  cases k.options? with
  | none =>
      simp only
      rw [World.withSession_id fun _ => rfl]
      rfl
  | some options => rfl

theorem run_accept (k : Command) (c : Scope) (w : World σ) :
    run (s.accept h k) c w = match run (s.letIn h k) c w with
      | (.ok true, w') => run (s.handOver h k (w.session s).config.dispatch) (c.locking s) w'
      | (.ok false, w') => (.ok (.ok ()), w')
      | (.error p, w') => (.error p, w') := by
  let x := w.session s
  change run (do
      if k.needsLiveSession && x.lifecycle.disposed then return .ok ()
      if k.resumes then s.announceStart h
      s.handOver h k x.config.dispatch) (c.locking s) w =
    match run (do
      if k.needsLiveSession && x.lifecycle.disposed then return false
      if k.resumes then s.announceStart h
      return true) (c.locking s) w with
    | (.ok true, w') => run (s.handOver h k x.config.dispatch) (c.locking s) w'
    | (.ok false, w') => (.ok (.ok ()), w')
    | (.error p, w') => (.error p, w')
  cases k.needsLiveSession && x.lifecycle.disposed with
  | true => rfl
  | false =>
      cases k.resumes with
      | false => rfl
      | true =>
          simp only [Bool.false_eq_true, if_false, if_true, run_bind]
          rcases run (s.announceStart h) _ w with ⟨p | _, w'⟩ <;> rfl

/-- A command that is taken in is announced if it lets the target run. -/
theorem run_takeIn_of_ok {k : Command} {c : Scope} {w w' : World σ}
    (hrun : run (s.takeIn h k) c w = (.ok true, w')) :
    run (if k.resumes then s.announceStart h else pure ()) (c.locking s)
      (w.withSession s (·.taking k)) = (.ok (), w') := by
  rw [takeIn, run_bind, run_takeOptions] at hrun
  let x := (w.withSession s (·.taking k)).session s
  change run (do
      if k.needsLiveSession && x.lifecycle.disposed then return false
      if k.resumes then s.announceStart h
      return true) (c.locking s) _ = _ at hrun
  generalize (k.needsLiveSession && x.lifecycle.disposed) = ignored at hrun
  cases ignored with
  | true => cases hrun
  | false =>
      cases hresumes : k.resumes with
      | false =>
          rw [hresumes] at hrun
          cases hrun
          rfl
      | true =>
          rw [hresumes] at hrun
          simp only [Bool.false_eq_true, if_false, if_true, run_bind] at hrun ⊢
          rcases hstart : run (s.announceStart h) (c.locking s) (w.withSession s (·.taking k)) with
            ⟨p | _, w₁⟩ <;> rw [hstart] at hrun <;> cases hrun
          rfl

theorem run_command_of_error {k : Command} {e : SessionError} (hk : k.check = .error e) (c : Scope)
    (w : World σ) : run (s.command h k) c w = (.ok (.error e), w) := by
  simp only [command, hk]
  rfl

theorem run_command_of_not_live {k : Command} (hk : k.check = .ok ()) {c : Scope} {w : World σ}
    (hlive : w.isLive s c = false) :
    run (s.command h k) c w = (.ok (.error .detached), w) := by
  have hlive' : run (isLive s) c w = (.ok false, w) := congrArg (Except.ok ·, w) hlive
  simp only [command, hk, entering]
  rw [run_bind, hlive']
  rfl

theorem run_command_of_live {k : Command} (hk : k.check = .ok ()) {c : Scope} {w : World σ}
    (hlive : w.isLive s c = true) :
    run (s.command h k) c w = match run (s.takeIn h k) (c.inside s) w with
      | (.ok true, w') =>
        run (s.handOver h k (w.session s).config.dispatch) ((c.inside s).locking s) w'
      | (.ok false, w') => (.ok (.ok ()), w')
      | (.error p, w') => (.error p, w') := by
  have hrun : run (s.command h k) c w = run (do s.takeOptions k; s.accept h k) (c.inside s) w := by
    simp only [command, hk]
    exact s.run_entering_of_live _ hlive
  have hhidden : ((w.withSession s (·.taking k)).session s).hidden = (w.session s).hidden := by
    rw [World.hidden_session, World.hidden_session,
      World.hidden_withSession id (Session.hidden_taking k), Option.map_id_fun, id, ite_self]
  have hdispatch : ((w.withSession s (·.taking k)).session s).config.dispatch =
      (w.session s).config.dispatch := congrArg HiddenState.dispatch hhidden
  rw [hrun, takeIn, run_bind, run_bind, run_takeOptions]
  simp only [run_accept, hdispatch]

theorem run_command {k : Command} (hk : k.check = .ok ()) {w : World σ} (hheld : w.Holds s)
    (t : Thread) :
    run (s.command h k) ⟨t, [], []⟩ w = match run (s.takeIn h k) (s.inside t) w with
      | (.ok true, w') => run (s.handOver h k (w.session s).config.dispatch) (s.within t) w'
      | (.ok false, w') => (.ok (.ok ()), w')
      | (.error p, w') => (.error p, w') := by
  apply s.run_command_of_live h hk
  rw [World.isLive, hheld.held]
  rfl

/-- The engine is asked first, and what it answers says what comes after that. -/
theorem run_execute {k : Command} (hk : k ≠ .dispose) (c : Scope) (w : World σ) :
    run (s.execute h k) c w =
      match run ((h.engine s).answer (.command k)).run (c.locking s) w with
      | (.ok (.ok _), w') => run (do s.settle k; return .ok ()) (c.locking s) w'
      | (.ok (.error err), w') => run (s.recover h k err) (c.locking s) w'
      | (.error p, w') => (.error p, w') := by
  rw [s.execute_eq h hk]
  refine (run_bind ((h.engine s).answer (.command k)).run _ (c.locking s) w).trans ?_
  rcases run ((h.engine s).answer (.command k)).run (c.locking s) w with ⟨p | err | _, w'⟩ <;> rfl

def unhandled (k : Command) : Except Panic (Except SessionError Unit) → List SessionError
  | .ok (.ok _) => []
  | .ok (.error e) => [e]
  | .error p => [.workerPanicked k.name p.message]

theorem run_work (k : Command) (c : Scope) (w : World σ) :
    run (s.work h k) c w = (.ok (), (run (s.execute h k) c w).2.keep s
      (unhandled k (run (s.execute h k) c w).1)) := by
  simp only [work]
  rw [run_bind, run_outcome]
  rcases run (s.execute h k) c w with ⟨p | (e | u), w'⟩
  · rfl
  · rfl
  · have hkeep : w'.keep s [] = w' := World.withSession_id fun x => by simp
    change (Except.ok (), w') = (Except.ok (), w'.keep s [])
    rw [hkeep]

/-- A worker takes a command, carries it out, keeps its failure and finishes it. -/
theorem run_workNext_of_take {k : Command} {q : CommandQueue} {w : World σ}
    (htake : (w.session s).queue.take? = some (k, q))
    {r : Except Panic (Except SessionError Unit) × World σ}
    (hr : run (s.execute h k) ⟨.worker s, [], []⟩
      (w.withSession s ({ · with queue := q })) = r) :
    (run (s.workNext h) ⟨.worker s, [], []⟩ w).2 = (r.2.keep s (unhandled k r.1)).finish s k := by
  simp only [workNext]
  rw [run_session_bind, htake]
  change (run (do
    onThread (.worker s) (s.work h k)
    modifySession s fun x => { x with queue := x.queue.finish k }
    return true) ⟨.worker s, [], []⟩ (w.withSession s ({ · with queue := q }))).2 = _
  rw [run_bind, onThread, run_withReader, run_work, hr]
  rfl

theorem answer_workNext_of_take {k : Command} {q : CommandQueue} {w : World σ}
    (htake : (w.session s).queue.take? = some (k, q)) {c : Scope} :
    (run (s.workNext h) c w).1 = .ok true := by
  simp only [workNext]
  rw [run_session_bind, htake]
  change (run (do
    onThread (.worker s) (s.work h k)
    modifySession s fun x => { x with queue := x.queue.finish k }
    return true) c (w.withSession s ({ · with queue := q }))).1 = _
  rw [run_bind, onThread, run_withReader, run_work]
  rfl

theorem run_workNext {k : Command} {w : World σ} (hqueue : (w.session s).queue = ⟨[k], []⟩)
    {r : Except Panic (Except SessionError Unit) × World σ}
    (hr : run (s.execute h k) ⟨.worker s, [], []⟩ (w.take s k) = r) :
    (run (s.workNext h) ⟨.worker s, [], []⟩ w).2 = (r.2.keep s (unhandled k r.1)).finish s k := by
  have htake : (w.session s).queue.take? = some (k, ⟨[], [k]⟩) := by
    rw [hqueue]
    rfl
  exact s.run_workNext_of_take h htake hr

end SessionId

theorem Host.Abides.takeIn {σ : Type} {L : Act.Law σ} {h : Host σ} (abides : h.Abides L)
    (eventful : L.Eventful) (s : SessionId) (k : Command) : Act.Obeys L (s.takeIn h k) := by
  refine (takeOptions s k).bind fun _ => Act.Obeys.locked s ?_
  refine Act.Obeys.session (fun _ => rfl) fun x => Act.Obeys.ite (Act.Obeys.pure false) ?_
  cases k.resumes with
  | true => exact (abides.announceStart eventful s).bind fun _ => Act.Obeys.pure true
  | false => exact Act.Obeys.pure true

/-- What programs make of worlds commands do too, if it may be made by accepting them. -/
theorem World.Course.command {σ : Type} {R : World σ → World σ → Prop} (course : World.Course R)
    {h : Host σ} (abides : h.Abides course.law) (eventful : course.law.Eventful) {s : SessionId}
    {k : Command} (haccept : ∀ w, R w (w.accept s k)) (c : Scope) (w : World σ) :
    R w (Act.run (s.command h k) c w).2 := by
  have hhandOver (dispatch : Dispatch) (c : Scope) (w : World σ) :
      R w (Act.run (s.handOver h k dispatch) c w).2 := by
    cases dispatch with
    | inline => exact abides.execute eventful s k c w
    | worker => exact haccept w
  cases hcheck : k.check with
  | error e =>
      rw [s.run_command_of_error h hcheck]
      exact course.same rfl rfl
  | ok u =>
      cases hlive : w.isLive s c with
      | false =>
          rw [s.run_command_of_not_live h hcheck hlive]
          exact course.same rfl rfl
      | true =>
          have htake := abides.takeIn eventful s k (c.inside s) w
          rw [s.run_command_of_live h hcheck hlive]
          rcases hrun : Act.run (s.takeIn h k) (c.inside s) w with ⟨p | (_ | _), w'⟩ <;>
            rw [hrun] at htake
          · exact htake
          · exact htake
          · exact course.trans htake (hhandOver _ _ w')

theorem Host.Unaware.takeIn {σ : Type} {h : Host σ} (unaware : h.Unaware) (s : SessionId)
    (k : Command) : (s.takeIn h k).Oblivious :=
  unaware.abides.takeIn (Act.oblivious_eventful σ) s k

/-- Carrying a command out later comes to the same, but for where its failure goes. -/
theorem Host.Unaware.run_workNext {σ : Type} {h : Host σ} (unaware : h.Unaware) {s : SessionId}
    {w : World σ} (hrest : w.Resting) (hheld : w.Holds s) (k : Command)
    (kept : List (SessionId × SessionError)) (t : Thread)
    {r : Except Panic (Except SessionError Unit) × World σ}
    (hr : Act.run (s.execute h k) (s.within t) w = r) :
    r.2.hidden = w.hidden ∧
      (Act.run (s.workNext h) ⟨.worker s, [], []⟩ ((w.deferring kept).accept s k)).2 =
        r.2.deferring (kept ++ (SessionId.unhandled k r.1).map (s, ·)) := by
  have hakin := unaware.execute s k
    (hrest.alike_takenUp hheld k kept (s.within_free t) (c := s.within t) rfl)
  rw [hr] at hakin
  refine ⟨hakin.kept, ?_⟩
  rw [s.run_workNext h (hrest.deferring.queue_accept hheld.deferring) rfl]
  have hanswer := hakin.answer
  change _ = (Act.run (s.execute h k) ⟨.worker s, [], []⟩ (w.takenUp s k kept)).1 at hanswer
  have hdone := hrest.finish_keep hakin.kept hakin.kept' hakin.bare (SessionId.unhandled k r.1)
  rw [hanswer] at hdone ⊢
  exact hdone

end DebugSession
