import DebugSession.Proofs.Dispatch

namespace DebugSession

open Act

structure Job where
  command : Command
  outcome : Except Panic (Except SessionError Unit)

def Job.faults (j : Job) : List SessionError := SessionId.unhandled j.command j.outcome

namespace Turn

variable {σ : Type} (h : Host σ) (s : SessionId)

def accepted (w : World σ) : Turn → List Command
  | perform t (.command k) =>
    match k.check, (run (s.takeIn h k) (s.inside t) w).1 with
    | .ok _, .ok true => [k]
    | _, _ => []
  | _ => []

def jobs (w : World σ) : Turn → List Job
  | work =>
    match (w.session s).queue.take? with
    | none => []
    | some (k, q) => [⟨k, (run (s.execute h k) ⟨.worker s, [], []⟩
        (w.withSession s ({ · with queue := q }))).1⟩]
  | perform _ _ | choose _ _ => []

def gather {α : Type} (f : World σ → Turn → List α) : World σ → List Turn → List α
  | _, [] => []
  | w, turn :: rest => f w turn ++ gather f (turn.after h s w) rest

end Turn

/-- What has become of a session that has accepted commands and whose workers have carried out
commands: none is lost or passed over, and faults are kept in their order. -/
structure HiddenState.Served (g g' : HiddenState) (ks : List Command) (js : List Job) : Prop where
  held : g'.held = g.held
  dispatch : g'.dispatch = g.dispatch
  waiting : g.queue.waiting ++ ks = js.map (·.command) ++ g'.queue.waiting
  faults : g'.faults = g.faults ++ js.flatMap (·.faults)

namespace HiddenState.Served

variable {g g' g'' : HiddenState} {ks ks' : List Command} {js js' : List Job}

theorem refl (g : HiddenState) : g.Served g [] [] :=
  ⟨rfl, rfl, List.append_nil _, (List.append_nil _).symm⟩

theorem trans (hg : g.Served g' ks js) (hg' : g'.Served g'' ks' js') :
    g.Served g'' (ks ++ ks') (js ++ js') where
  held := hg'.held.trans hg.held
  dispatch := hg'.dispatch.trans hg.dispatch
  waiting := by
    rw [← List.append_assoc, hg.waiting, List.append_assoc, hg'.waiting, List.map_append,
      List.append_assoc]
  faults := by rw [hg'.faults, hg.faults, List.flatMap_append, List.append_assoc]

end HiddenState.Served

/-- Programs that cannot tell what is hidden leave it alone. -/
theorem Act.Oblivious.hidden {σ α : Type} {a : Act σ α} (ha : Oblivious a) {c : Scope} (hc : c.Free)
    (w : World σ) : (run a c w).2.hidden = w.hidden :=
  (ha ⟨rfl, fun _ => rfl, hc, hc⟩).kept

theorem World.session_of_hidden {σ : Type} {w : World σ} {s : SessionId} {g : HiddenState}
    (hg : w.hidden s = some g) : (w.session s).hidden = g := by
  rw [World.hidden_session, hg]
  rfl

namespace Host.Unaware

variable {σ : Type} {h : Host σ} (unaware : h.Unaware) {s : SessionId} {w : World σ}
variable {g : HiddenState}

include unaware

theorem served_command (hg : w.hidden s = some g) (hheld : g.held = true)
    (hworker : g.dispatch = .worker) (t : Thread) (k : Command) :
    ∃ g', ((Turn.perform t (.command k)).after h s w).hidden s = some g' ∧
      g.Served g' ((Turn.perform t (.command k)).accepted h s w) [] := by
  change ∃ g', (run (s.command h k) ⟨t, [], []⟩ w).2.hidden s = some g' ∧ _
  simp only [Turn.accepted]
  cases hk : k.check with
  | error e =>
      rw [s.run_command_of_error h hk]
      exact ⟨g, hg, .refl g⟩
  | ok u =>
      have hdispatch : (w.session s).config.dispatch = .worker :=
        (congrArg HiddenState.dispatch (World.session_of_hidden hg)).trans hworker
      have hkept := (unaware.takeIn s k).hidden (s.inside_free t) w
      rw [s.run_command h hk ⟨g, hg, hheld⟩, hdispatch]
      rcases hrun : run (s.takeIn h k) (s.inside t) w with ⟨p | (_ | _), w'⟩ <;>
        rw [hrun] at hkept <;> rw [← hkept] at hg
      · exact ⟨g, hg, .refl g⟩
      · exact ⟨g, hg, .refl g⟩
      · refine ⟨{ g with queue := g.queue.accept k }, ?_, rfl, rfl, rfl, (List.append_nil _).symm⟩
        change (w'.accept s k).hidden s = _
        rw [World.hidden_accept, if_pos rfl, hg]
        rfl

theorem served_work (hg : w.hidden s = some g) :
    ∃ g', (Turn.work.after h s w).hidden s = some g' ∧
      g.Served g' (Turn.work.accepted h s w) (Turn.work.jobs h s w) := by
  change ∃ g', (run (s.workNext h) ⟨.worker s, [], []⟩ w).2.hidden s = some g' ∧ _
  simp only [Turn.accepted, Turn.jobs]
  cases htake : (w.session s).queue.take? with
  | none =>
      have hidle : (run (s.workNext h) ⟨.worker s, [], []⟩ w).2 = w := by
        simp only [SessionId.workNext]
        rw [SessionId.run_session_bind, htake]
        rfl
      rw [hidle]
      exact ⟨g, hg, .refl g⟩
  | some taken =>
      obtain ⟨k, q⟩ := taken
      have hqueue : (w.session s).queue = g.queue :=
        congrArg HiddenState.queue (World.session_of_hidden hg)
      obtain ⟨hwaiting, -⟩ := CommandQueue.take?_eq_some htake
      have hfree : Scope.Free ⟨.worker s, [], []⟩ := fun l hl => by cases hl
      have hkept := (unaware.execute s k).hidden hfree (w.withSession s ({ · with queue := q }))
      rcases hrun : run (s.execute h k) ⟨.worker s, [], []⟩ (w.withSession s ({ · with queue := q }))
        with ⟨r, w'⟩
      rw [hrun] at hkept
      rw [s.run_workNext_of_take h htake hrun]
      refine ⟨{ g with queue := q.finish k, faults := g.faults ++ SessionId.unhandled k r }, ?_,
        rfl, rfl, ?_, ?_⟩
      · rw [World.hidden_finish, if_pos rfl, World.hidden_keep, if_pos rfl, hkept,
          World.hidden_withSession (fun g => { g with queue := q }) (fun _ => rfl), if_pos rfl, hg]
        rfl
      · rw [List.append_nil, ← hqueue, hwaiting]
        rfl
      · rw [List.flatMap_singleton, hrun]
        rfl

theorem served (hg : w.hidden s = some g) (hheld : g.held = true) (hworker : g.dispatch = .worker)
    (turn : Turn) : ∃ g', (turn.after h s w).hidden s = some g' ∧
      g.Served g' (turn.accepted h s w) (turn.jobs h s w) := by
  cases turn with
  | work => exact unaware.served_work hg
  | choose m hm =>
      have hhidden := hm.keeps (f := Session.hidden) fun _ _ _ _ _ _ => rfl
      refine ⟨g, ?_, .refl g⟩
      change (w.withSession s m).hidden s = some g
      rw [World.hidden_withSession id hhidden, if_pos rfl, hg]
      rfl
  | perform t o =>
      by_cases ho : ∃ k, o = .command k
      · obtain ⟨k, rfl⟩ := ho
        exact unaware.served_command hg hheld hworker t k
      · have hother (k : Command) : o ≠ .command k := fun hk => ho ⟨k, hk⟩
        have hfree : Scope.Free ⟨t, [], []⟩ := fun l hl => by cases hl
        have hnone : (Turn.perform t o).accepted h s w = [] := by
          cases o with
          | command k => exact absurd rfl (hother k)
          | _ => rfl
        refine ⟨g, ?_, ?_⟩
        · rw [← hg]
          exact congrFun ((unaware.perform s hother).hidden hfree w) s
        · rw [hnone]
          exact .refl g

theorem served_afterAll (hg : w.hidden s = some g) (hheld : g.held = true)
    (hworker : g.dispatch = .worker) (turns : List Turn) :
    ∃ g', (Turn.afterAll h s w turns).hidden s = some g' ∧
      g.Served g' (Turn.gather h s (Turn.accepted h s) w turns)
        (Turn.gather h s (Turn.jobs h s) w turns) := by
  induction turns generalizing w g with
  | nil => exact ⟨g, hg, .refl g⟩
  | cons turn rest ih =>
      obtain ⟨g₁, hg₁, hserved⟩ := unaware.served hg hheld hworker turn
      obtain ⟨g₂, hg₂, hserved'⟩ := ih hg₁ (hserved.held.trans hheld) (hserved.dispatch.trans hworker)
      exact ⟨g₂, hg₂, hserved.trans hserved'⟩

/-- What waits is carried out when the workers turn to it. -/
theorem drained (hg : w.hidden s = some g) : (Turn.gather h s (Turn.jobs h s) w
    (List.replicate g.queue.waiting.length .work)).map (·.command) = g.queue.waiting := by
  induction hwaiting : g.queue.waiting generalizing w g with
  | nil => rfl
  | cons k rest ih =>
      obtain ⟨g', hg', hserved⟩ := unaware.served_work hg
      have hqueue : (w.session s).queue = g.queue :=
        congrArg HiddenState.queue (World.session_of_hidden hg)
      have hjobs : (Turn.work.jobs h s w).map (·.command) = [k] := by
        have htake : (w.session s).queue.take? = some (k, ⟨rest, g.queue.running ++ [k]⟩) := by
          rw [hqueue, CommandQueue.take?, hwaiting]
        simp only [Turn.jobs, htake, List.map_cons, List.map_nil]
      have hrest : g'.queue.waiting = rest := by
        have hall := hserved.waiting
        rw [hjobs, hwaiting] at hall
        change k :: rest ++ [] = [k] ++ g'.queue.waiting at hall
        rw [List.append_nil] at hall
        exact (List.cons.inj hall).2.symm
      rw [List.length_cons, List.replicate_succ, Turn.gather, List.map_append, hjobs, ih hg' hrest]
      rfl

end Host.Unaware

theorem World.lifecycle_finish_keep {σ : Type} (w : World σ) (s t : SessionId) (k : Command)
    (es : List SessionError) :
    (((w.keep s es).finish s k).session t).lifecycle = (w.session t).lifecycle := by
  have hfinish (x : Session) :
      ({ x with queue := x.queue.finish k } : Session).lifecycle = x.lifecycle := rfl
  have hkeep (x : Session) :
      ({ x with faults := x.faults ++ es } : Session).lifecycle = x.lifecycle := rfl
  rw [finish, map_session_withSession (f := Session.lifecycle) hfinish, keep,
    map_session_withSession (f := Session.lifecycle) hkeep]

namespace SessionId

variable {σ : Type} (h : Host σ) (s : SessionId) {k : Command} {w w' : World σ} {p : Panic}

theorem run_execute_of_panic {c : Scope}
    (hbody : run (s.body h k).run (c.locking s) w = (.error p, w')) :
    run (s.execute h k) c w = (.error p, w') := by
  change run ((s.body h k).run >>= _) (c.locking s) w = _
  rw [run_bind, hbody]

/-- After a panic a worker does no more than write it down. -/
theorem run_workNext_of_panic {q : CommandQueue}
    (htake : (w.session s).queue.take? = some (k, q))
    (hbody : run (s.body h k).run (Scope.locking ⟨.worker s, [], []⟩ s)
      (w.withSession s ({ · with queue := q })) = (.error p, w')) :
    run (s.workNext h) ⟨.worker s, [], []⟩ w =
      (.ok true, (w'.keep s [.workerPanicked k.name p.message]).finish s k) :=
  Prod.ext (s.answer_workNext_of_take h htake)
    (s.run_workNext_of_take h htake (s.run_execute_of_panic h hbody))

end SessionId

/-- Whatever becomes of the bodies of commands, workers carry out all that is accepted, in its
order, and keep one fault for each panic in its turn. What they do not do after a panic is to make
up for it: the session is left as its body left it, running or not, and nothing more is told to
anyone. -/
theorem panics_kept_and_not_made_up_for {σ : Type} (conduct : Conduct σ) (rest : Host (Journaled σ))
    (n : Nat) {w : World (Journaled σ)} {s : SessionId} (hheld : w.Holds s)
    (hworker : (w.session s).config.dispatch = .worker) (turns : List Turn) :
    let h := conduct.host rest n
    let w' := Turn.afterAll h s w turns
    let jobs := Turn.gather h s (Turn.jobs h s) w turns
    let waiting := (w'.session s).queue.waiting
    (w.session s).queue.waiting ++ Turn.gather h s (Turn.accepted h s) w turns =
      jobs.map (·.command) ++ waiting ∧
    (Turn.gather h s (Turn.jobs h s) w' (List.replicate waiting.length .work)).map (·.command) =
      waiting ∧
    (w'.session s).faults = (w.session s).faults ++ jobs.flatMap (·.faults) ∧
    ∀ k q p w₁, (w'.session s).queue.take? = some (k, q) →
      run (s.body h k).run (Scope.locking ⟨.worker s, [], []⟩ s)
        (w'.withSession s ({ · with queue := q })) = (.error p, w₁) →
      let w₂ := Turn.work.after h s w'
      Turn.work.jobs h s w' = [⟨k, .error p⟩] ∧
      (w₂.session s).faults = (w'.session s).faults ++ [.workerPanicked k.name p.message] ∧
      (w₂.session s).lifecycle = (w₁.session s).lifecycle ∧ w₂.host = w₁.host := by
  intro h w' jobs waiting
  have unaware : h.Unaware := conduct.unaware rest n
  obtain ⟨g, hg, hsession⟩ := hheld.session
  have hheld' : g.held = true := (congrArg HiddenState.held hsession).symm.trans hheld.held
  have hworker' : g.dispatch = .worker :=
    (congrArg HiddenState.dispatch hsession).symm.trans hworker
  obtain ⟨g', hg', hserved⟩ := unaware.served_afterAll hg hheld' hworker' turns
  have hsession' : (w'.session s).hidden = g' := World.session_of_hidden hg'
  have hqueue : (w.session s).queue = g.queue := congrArg HiddenState.queue hsession
  have hqueue' : (w'.session s).queue = g'.queue := congrArg HiddenState.queue hsession'
  have hfaults : (w.session s).faults = g.faults := congrArg HiddenState.faults hsession
  have hfaults' : (w'.session s).faults = g'.faults := congrArg HiddenState.faults hsession'
  refine ⟨?_, ?_, ?_, fun k q p w₁ htake hbody => ?_⟩
  · rw [hqueue]
    exact hserved.waiting.trans (congrArg _ (congrArg CommandQueue.waiting hqueue').symm)
  · have hdrained := unaware.drained hg'
    rwa [← hqueue'] at hdrained
  · rw [hfaults, hfaults']
    exact hserved.faults
  · have hjobs : Turn.work.jobs h s w' = [⟨k, .error p⟩] := by
      simp only [Turn.jobs, htake, s.run_execute_of_panic h hbody]
    have hafter : Turn.work.after h s w' =
        (w₁.keep s [.workerPanicked k.name p.message]).finish s k :=
      congrArg Prod.snd (s.run_workNext_of_panic h htake hbody)
    obtain ⟨g'', hg'', hserved'⟩ := unaware.served_work hg'
    rw [hjobs] at hserved'
    refine ⟨hjobs, ?_, ?_, ?_⟩
    · rw [hfaults']
      exact (congrArg HiddenState.faults (World.session_of_hidden hg'')).trans hserved'.faults
    · rw [hafter, World.lifecycle_finish_keep]
    · rw [hafter]
      rfl

namespace Scripted

def crashing : Conduct Simulation.Memory
  | .answer _ (.command .proceed) => .panic ⟨some "boom"⟩
  | .answer _ (.command .stop) => .done (.error .notRunning)
  | x => stalling x

abbrev crashes : Host (Journaled Simulation.Memory) := crashing.host (Simulation.host default) 3

def crowded : List Turn := calls [.command .proceed, .command .stop, .command .stepLine]

theorem watched_holds : watched.Holds self := ⟨_, rfl, rfl⟩

def told (w : World (Journaled Simulation.Memory)) : List SessionEvent :=
  w.host.2.filterMap fun
    | .observe _ _ e => some e
    | _ => none

end Scripted

open Scripted in
/-- The first body panics, the second fails, and the third is carried out all the same. -/
theorem panics_kept_by_script :
    let w' := Turn.afterAll crashes self Scripted.watched crowded
    let w₂ := Turn.work.after crashes self w'
    (Scripted.watched.session self).queue.waiting ++
        Turn.gather crashes self (Turn.accepted crashes self) Scripted.watched crowded =
      (Turn.gather crashes self (Turn.jobs crashes self) Scripted.watched crowded).map
        (·.command) ++ (w'.session self).queue.waiting ∧
    (Turn.gather crashes self (Turn.jobs crashes self) w' (List.replicate 3 .work)).map
      (·.command) = [.proceed, .stop, .stepLine] ∧
    Turn.work.jobs crashes self w' = [⟨.proceed, .error ⟨some "boom"⟩⟩] ∧
    (w₂.session self).faults = [.workerPanicked "continue" "boom"] ∧
    ((Turn.afterAll crashes self w' [.work, .work, .work]).session self).faults =
      [.workerPanicked "continue" "boom", .command "stop" .notRunning] := by
  intro w' w₂
  have hwaiting : (w'.session self).queue.waiting = [.proceed, .stop, .stepLine] := by decide +kernel
  obtain ⟨haccepted, hdrained, -, hpanic⟩ := panics_kept_and_not_made_up_for crashing
    (Simulation.host default) 3 watched_holds rfl crowded
  obtain ⟨hjobs, hfaults, -, -⟩ := hpanic .proceed ⟨[.stop, .stepLine], [.proceed]⟩ ⟨some "boom"⟩ _
    rfl rfl
  have hnone : (w'.session self).faults = [] := by decide +kernel
  change (Turn.gather crashes self (Turn.jobs crashes self) w' (List.replicate
    (w'.session self).queue.waiting.length .work)).map (·.command) = _ at hdrained
  rw [hwaiting] at hdrained
  refine ⟨haccepted, hdrained, hjobs, ?_, by decide +kernel⟩
  change (w₂.session self).faults = (w'.session self).faults ++ _ at hfaults
  rw [hfaults, hnone]
  rfl

open Scripted in
/-- The target was to run, and never did. Nobody is told that it does not. -/
theorem left_running_by_panic :
    let w := Turn.afterAll crashes self Scripted.watched (calls [.command .proceed] ++ [.work])
    (w.session self).faults = [.workerPanicked "continue" "boom"] ∧
    (w.session self).queue = {} ∧ (w.session self).lifecycle.running = true ∧
    told w = [.started] :=
  ⟨by decide +kernel, by decide +kernel, by decide +kernel, rfl⟩

end DebugSession
