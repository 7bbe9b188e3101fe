import DebugSession.Proofs.Acceptance
import DebugSession.Proofs.Conduct
import DebugSession.Simulation.Host

namespace DebugSession

open Act

variable {σ : Type}

structure World.Beside (w w' : World σ) : Prop where
  lifecycle : ∀ t, (w'.session t).lifecycle = (w.session t).lifecycle
  faults : ∀ t, (w'.session t).faults <:+ (w.session t).faults

namespace World.Beside

variable {w w' w'' : World σ}

theorem refl (w : World σ) : w.Beside w := ⟨fun _ => rfl, fun _ => List.suffix_refl _⟩

theorem trans (h : w.Beside w') (h' : w'.Beside w'') : w.Beside w'' :=
  ⟨fun t => (h'.lifecycle t).trans (h.lifecycle t), fun t => (h'.faults t).trans (h.faults t)⟩

theorem of_sessions (h : w'.sessions = w.sessions) : w.Beside w' := by
  have hsession (t : SessionId) : w'.session t = w.session t := by
    rw [World.session, World.session, h]
  exact ⟨fun t => by rw [hsession], fun t => by simp only [hsession, List.suffix_refl]⟩

theorem withSession {s : SessionId} {m : Session → Session}
    (hlifecycle : ∀ x, (m x).lifecycle = x.lifecycle) (hfaults : ∀ x, (m x).faults = x.faults) :
    w.Beside (w.withSession s m) := by
  refine ⟨World.map_session_withSession hlifecycle, fun t => ?_⟩
  simp only [World.map_session_withSession hfaults, List.suffix_refl]

end World.Beside

/-- Observers and handlers of failures that come to an end. They issue no commands and raise no
notifications, and the host writes down that they are called. -/
structure Host.Listening (h : Host σ) (log : σ → List Contact) : Prop where
  observe : ∀ s k e c w, ∃ w', run (h.observe s k e) c w = (.ok (), w') ∧ w.Beside w' ∧
    log w'.host = log w.host ++ [.observe s k e]
  handleFault : ∀ k e c w, ∃ accepted w', run (h.handleFault k e) c w = (.ok accepted, w') ∧
    w.Beside w' ∧ log w'.host = log w.host ++ [.handleFault k e]

namespace SessionId

variable (s : SessionId) (h : Host σ) (log : σ → List Contact) (c : Scope)

structure Tells (e : SessionEvent) (w w' : World σ) : Prop where
  runs : run (s.emit h e) c w = (.ok (), w')
  heard : log w'.host =
    log w.host ++ ((w.session s).observers.audience e.topic).map (.observe s · e)
  beside : w.Beside w'

def Reports (kind : TargetEventKind) (w w' : World σ) : Prop :=
  let e := s.attachEvent { kind := kind }
  ∃ w₁, s.Tells h log c (.target e) (w.withSession s (noting · e)) w₁ ∧
    s.Tells h log c (.anyTarget e) w₁ w'

def Asks (e : SessionError) (w : World σ) (accepted : Bool) (w' : World σ) : Prop :=
  match (w.session s).handlers.fault with
  | some k => run (h.handleFault k e) c w = (.ok accepted, w') ∧ w.Beside w' ∧
      log w'.host = log w.host ++ [.handleFault k e]
  | none => accepted = false ∧ w' = w

/-- What follows a refusal of the engine: one event for a command that was to let the target run and
none for others, and one question. -/
structure Recovers (k : Command) (err : EngineError) (w : World σ) (accepted : Bool)
    (w' : World σ) : Prop where
  course : ∃ w₁,
    (match k.recovery with
      | some kind => s.Reports h log c kind w w₁
      | none => w₁ = w) ∧
    s.Asks h log c (.command k.name err) w₁ accepted w'
  running : k.resumes = true → (w'.session s).lifecycle.running = false
  lifecycle : k.resumes = false → ∀ t, (w'.session t).lifecycle = (w.session t).lifecycle
  faults : (w'.session s).faults <:+ (w.session s).faults

end SessionId

/-- A target that was to be launched, or to leave a function, is taken to have exited, and one that
was to go on to have stopped. For any other command nothing is reported. -/
theorem Command.recovery_eq_some_iff {k : Command} {kind : TargetEventKind} :
    k.recovery = some kind ↔
      (kind = .exited ∧ ((∃ start options, k = .run start options) ∨
        (∃ process options, k = .attach process options) ∨ k = .finish)) ∨
      (kind = .stopped ∧
        k ∈ [.proceed, .stepLine, .nextLine, .stepInstruction, .nextInstruction]) := by
  cases k <;> simp [recovery, eq_comm]

theorem Command.running_reported {k : Command} {kind : TargetEventKind}
    (hk : k.recovery = some kind) (l : Lifecycle) : (l.reported kind).running = false := by
  rcases recovery_eq_some_iff.mp hk with ⟨rfl, -⟩ | ⟨rfl, -⟩ <;> rfl

namespace SessionId

variable {s : SessionId} {h : Host σ} {log : σ → List Contact} {c : Scope} {w w' : World σ}

theorem Asks.beside {e : SessionError} {accepted : Bool} (ha : s.Asks h log c e w accepted w') :
    w.Beside w' := by
  unfold Asks at ha
  cases hhandler : (w.session s).handlers.fault with
  | none =>
      rw [hhandler] at ha
      rw [ha.2]
      exact .refl w
  | some k =>
      rw [hhandler] at ha
      exact ha.2.1

namespace Reports

variable {kind : TargetEventKind}

theorem beside (hr : s.Reports h log c kind w w') :
    (w.withSession s (noting · (s.attachEvent { kind := kind }))).Beside w' := by
  obtain ⟨w₁, htyped, hall⟩ := hr
  exact htyped.beside.trans hall.beside

/-- Out of range there is no session to be running. -/
theorem running (hr : s.Reports h log c kind w w') {k : Command} (hk : k.recovery = some kind) :
    (w'.session s).lifecycle.running = false := by
  rw [hr.beside.lifecycle s]
  by_cases hs : s.index < w.sessions.size
  · rw [World.session_withSession_self hs]
    exact k.running_reported hk _
  · rw [World.session_of_size_le]
    · rfl
    · rw [World.size_withSession]
      exact Nat.le_of_not_lt hs

theorem faults (hr : s.Reports h log c kind w w') :
    (w'.session s).faults <:+ (w.session s).faults := by
  have hfaults := hr.beside.faults s
  have hnoting (x : Session) (e : TargetEvent) : (noting x e).faults = x.faults := rfl
  rwa [World.map_session_withSession (f := Session.faults) (hnoting · _)] at hfaults

end Reports

end SessionId

namespace Host.Listening

variable {h : Host σ} {log : σ → List Contact} (hh : h.Listening log) (s : SessionId) (c : Scope)
include hh

theorem forM_observe (e : SessionEvent) (ks : List CallbackId) (w : World σ) :
    ∃ w', run (ks.forM (h.observe s · e)) c w = (.ok (), w') ∧ w.Beside w' ∧
      log w'.host = log w.host ++ ks.map (.observe s · e) := by
  induction ks generalizing w with
  | nil => exact ⟨w, rfl, .refl w, (List.append_nil _).symm⟩
  | cons k rest ih =>
      obtain ⟨w₁, hrun, hbeside, hheard⟩ := hh.observe s k e c w
      obtain ⟨w₂, hrun', hbeside', hheard'⟩ := ih w₁
      refine ⟨w₂, ?_, hbeside.trans hbeside', ?_⟩
      · change run (do h.observe s k e; rest.forM (h.observe s · e)) c w = _
        rw [run_bind, hrun]
        exact hrun'
      · rw [hheard', hheard, List.append_assoc]
        rfl

theorem tells (e : SessionEvent) (w : World σ) : ∃ w', s.Tells h log c e w w' := by
  obtain ⟨w', hrun, hbeside, hheard⟩ :=
    hh.forM_observe s c e ((w.session s).observers.audience e.topic) w
  exact ⟨w', hrun, hheard, hbeside⟩

theorem reports (kind : TargetEventKind) (w : World σ) :
    ∃ w', run (s.targetEvent h { kind := kind }) c w = (.ok (), w') ∧
      s.Reports h log c kind w w' := by
  obtain ⟨w₁, htyped⟩ := hh.tells s c (.target (s.attachEvent { kind := kind }))
    (w.withSession s (SessionId.noting · (s.attachEvent { kind := kind })))
  obtain ⟨w₂, hall⟩ := hh.tells s c (.anyTarget (s.attachEvent { kind := kind })) w₁
  refine ⟨w₂, ?_, w₁, htyped, hall⟩
  change run (do
    s.emit h (.target (s.attachEvent { kind := kind }))
    s.emit h (.anyTarget (s.attachEvent { kind := kind }))) c
      (w.withSession s (SessionId.noting · (s.attachEvent { kind := kind }))) = _
  rw [run_bind, htyped.runs]
  exact hall.runs

theorem asks (e : SessionError) (w : World σ) :
    ∃ accepted w', run (s.offerFault h e) c w = (.ok accepted, w') ∧
      s.Asks h log c e w accepted w' := by
  unfold SessionId.offerFault SessionId.Asks
  rw [SessionId.run_session_bind]
  cases (w.session s).handlers.fault with
  | none => exact ⟨false, w, rfl, rfl, rfl⟩
  | some k =>
      obtain ⟨accepted, w', hrun, hbeside, hheard⟩ := hh.handleFault k e c w
      exact ⟨accepted, w', hrun, hrun, hbeside, hheard⟩

/-- A command that the engine refused is made up for and reported. -/
theorem recovers (k : Command) (err : EngineError) (w : World σ) :
    ∃ accepted w', run (s.recover h k err) c w =
        (.ok (if accepted then .ok () else .error (.command k.name err)), w') ∧
      s.Recovers h log c k err w accepted w' := by
  unfold SessionId.recover
  cases hrecovery : k.recovery with
  | none =>
      obtain ⟨accepted, w', hask, hasks⟩ := hh.asks s c (.command k.name err) w
      have hbeside := hasks.beside
      refine ⟨accepted, w', ?_, ?_, fun h => ?_, fun _ => hbeside.lifecycle, hbeside.faults s⟩
      · dsimp only
        rw [run_bind, hask]
        rfl
      · rw [hrecovery]
        exact ⟨w, rfl, hasks⟩
      · rw [Command.resumes, hrecovery] at h
        cases h
  | some kind =>
      obtain ⟨w₁, hreport, hreports⟩ := hh.reports s c kind w
      obtain ⟨accepted, w', hask, hasks⟩ := hh.asks s c (.command k.name err) w₁
      have hbeside := hasks.beside
      refine ⟨accepted, w', ?_, ?_, fun _ => ?_, fun h => ?_, ?_⟩
      · rw [run_bind, hreport]
        dsimp only
        rw [run_bind, hask]
        rfl
      · rw [hrecovery]
        exact ⟨w₁, hreports, hasks⟩
      · rw [hbeside.lifecycle s]
        exact hreports.running hrecovery
      · rw [Command.resumes, hrecovery] at h
        cases h
      · exact (hbeside.faults s).trans hreports.faults

/-- A command is taken in by a session that is not disposed. -/
theorem run_takeIn (k : Command) {w : World σ} (hw : (w.session s).lifecycle.disposed = false) :
    ∃ w', run (s.takeIn h k) c w = (.ok true, w') ∧ (k.resumes = false → w' = w) := by
  have hdisposed : ((w.withSession s (·.taking k)).session s).lifecycle.disposed = false := by
    rwa [World.map_session_withSession (f := Session.lifecycle) (Session.lifecycle_taking k)]
  have hletIn : run (s.letIn h k) c (w.withSession s (·.taking k)) = run (do
      if k.resumes then s.announceStart h
      return true) (c.locking s) (w.withSession s (·.taking k)) := by
    rw [SessionId.letIn, locked, run_withReader, SessionId.run_session_bind, hdisposed,
      Bool.and_false]
    rfl
  rw [SessionId.takeIn, run_bind, SessionId.run_takeOptions]
  dsimp only
  rw [hletIn]
  cases hresumes : k.resumes with
  | false =>
      refine ⟨_, rfl, fun _ => ?_⟩
      have hoptions : k.options? = none := by cases k <;> first | rfl | cases hresumes
      exact World.withSession_id fun x => by rw [Session.taking, hoptions]
  | true =>
      let started := (w.withSession s (·.taking k)).withSession s
        fun x => { x with lifecycle := x.lifecycle.after .resumed }
      obtain ⟨w', hstarted⟩ := hh.tells s (c.locking s) .started started
      have hannounced : run (s.announceStart h) (c.locking s) (w.withSession s (·.taking k)) =
          (.ok (), w') := hstarted.runs
      refine ⟨w', ?_, fun h => by cases h⟩
      change run (do s.announceStart h; return true) (c.locking s) _ = _
      rw [run_bind, hannounced]
      rfl

/-- The body of a command runs under the lock, and if the engine refuses, so does what follows. -/
theorem run_execute {k : Command} (hk : k ≠ .dispose) {err : EngineError} {w w₁ : World σ}
    (hrefused : run ((h.engine s).answer (.command k)).run (c.locking s) w =
      (.ok (.error err), w₁)) :
    ∃ accepted w₂, run (s.execute h k) c w =
        (.ok (if accepted then .ok () else .error (.command k.name err)), w₂) ∧
      s.Recovers h log (c.locking s) k err w₁ accepted w₂ := by
  obtain ⟨accepted, w₂, hrecover, hrecovers⟩ := hh.recovers s (c.locking s) k err w₁
  refine ⟨accepted, w₂, ?_, hrecovers⟩
  rw [s.run_execute h hk, hrefused]
  exact hrecover

/-- A command that the engine refuses is made up for by one event if it was to let the target run,
its failure is offered once, and if nobody accepts that, it is returned to the caller or kept by the
worker. -/
theorem recovers_once {k : Command} (hk : k ≠ .dispose) (hcheck : k.check = .ok ()) {w : World σ}
    (hlive : w.isLive s c = true) (hw : (w.session s).lifecycle.disposed = false) :
    ∃ w₀, run (s.takeIn h k) (c.inside s) w = (.ok true, w₀) ∧ (k.resumes = false → w₀ = w) ∧
      match (w.session s).config.dispatch with
      | .inline =>
        let c' := ((c.inside s).locking s).locking s
        ∀ err w₁, run ((h.engine s).answer (.command k)).run c' w₀ = (.ok (.error err), w₁) →
          ∃ accepted w₂, s.Recovers h log c' k err w₁ accepted w₂ ∧
            run (s.command h k) c w =
              (.ok (if accepted then .ok () else .error (.command k.name err)), w₂)
      | .worker =>
        run (s.command h k) c w = (.ok (.ok ()), w₀.accept s k) ∧
        let c' := Scope.locking ⟨.worker s, [], []⟩ s
        ∀ w' q err w₁, (w'.session s).queue.take? = some (k, q) →
          run ((h.engine s).answer (.command k)).run c' (w'.withSession s ({ · with queue := q })) =
            (.ok (.error err), w₁) →
          ∃ accepted w₂, s.Recovers h log c' k err w₁ accepted w₂ ∧
            run (s.workNext h) ⟨.worker s, [], []⟩ w' = (.ok true,
              (w₂.keep s (if accepted then [] else [.command k.name err])).finish s k) := by
  obtain ⟨w₀, htake, hsame⟩ := hh.run_takeIn s (c.inside s) k hw
  have hcommand := s.run_command_of_live h hcheck hlive
  rw [htake] at hcommand
  refine ⟨w₀, htake, hsame, ?_⟩
  cases hdispatch : (w.session s).config.dispatch with
  | inline =>
      intro err w₁ hrefused
      obtain ⟨accepted, w₂, hexecute, hrecovers⟩ := hh.run_execute s _ hk hrefused
      rw [hdispatch] at hcommand
      exact ⟨accepted, w₂, hrecovers, hcommand.trans hexecute⟩
  | worker =>
      rw [hdispatch] at hcommand
      refine ⟨hcommand, fun w' q err w₁ hqueue hrefused => ?_⟩
      obtain ⟨accepted, w₂, hexecute, hrecovers⟩ := hh.run_execute s _ hk hrefused
      refine ⟨accepted, w₂, hrecovers, Prod.ext (s.answer_workNext_of_take h hqueue) ?_⟩
      rw [s.run_workNext_of_take h hqueue hexecute]
      cases accepted <;> rfl

end Host.Listening

namespace Refusing

def self : SessionId := ⟨0⟩

def note (x : Contact) : Act (Journaled Simulation.Memory) Unit :=
  modifyHost fun m => (m.1, m.2 ++ [x])

def attentive : Host (Journaled Simulation.Memory) :=
  { Simulation.host default with
    observe := fun s k e => do
      note (.observe s k e)
      if e.topic = .stopped then
        modifySession s fun x => { x with observers := x.observers.unsubscribe ⟨0⟩ }
    handleFault := fun k e => do
      note (.handleFault k e)
      return e = .command "continue" .notRunning }

theorem attentive_listening : attentive.Listening (·.2) where
  observe := by
    intro s k e c w
    have hobserve : run (attentive.observe s k e) c w = run (do
        note (.observe s k e)
        if e.topic = .stopped then
          modifySession s fun x => { x with observers := x.observers.unsubscribe ⟨0⟩ }) c w := rfl
    rw [hobserve]
    by_cases hstop : e.topic = .stopped
    · rw [if_pos hstop]
      let noted : World _ := { w with host := (w.host.1, w.host.2 ++ [.observe s k e]) }
      have hnoted : w.Beside noted := .of_sessions rfl
      exact ⟨_, rfl, hnoted.trans (.withSession (fun _ => rfl) fun _ => rfl), rfl⟩
    · rw [if_neg hstop]
      exact ⟨_, rfl, .of_sessions rfl, rfl⟩
  handleFault := fun k e c w => ⟨_, _, rfl, .of_sessions rfl, rfl⟩

def host : Host (Journaled Simulation.Memory) :=
  { attentive with
    engine := fun s => Engine.answering fun _ => ExceptT.mk do
      s.targetEvent attentive { kind := .threadStarted }
      return .error .notRunning }

theorem listening : host.Listening (·.2) :=
  ⟨attentive_listening.observe, attentive_listening.handleFault⟩

theorem refuses (k : Command) (c : Scope) (w : World (Journaled Simulation.Memory)) :
    ∃ w₁, run ((host.engine self).answer (.command k)).run c w =
      (.ok (.error .notRunning), w₁) := by
  obtain ⟨w₁, hreport, -⟩ := attentive_listening.reports self c .threadStarted w
  refine ⟨w₁, ?_⟩
  change run (do
    self.targetEvent attentive { kind := .threadStarted }
    return (Except.error .notRunning : Except EngineError Unit)) c w = _
  rw [run_bind, hreport]
  rfl

def watched (dispatch : Dispatch) : World (Journaled Simulation.Memory) :=
  { host := (default, [])
    sessions := #[{ Session.new { dispatch := dispatch } ⟨0⟩ with
      observers := ((({} : Observers CallbackId).subscribe none ⟨0⟩).2.subscribe none ⟨1⟩).2
      handlers := { fault := some ⟨2⟩ } }]
    routers := #[{}] }

def caller : Scope := { thread := .caller 0 }

def heard : List Contact :=
  let arrival : TargetEvent := { kind := .threadStarted }
  let stop : TargetEvent := { kind := .stopped, isStop := true }
  [.observe self ⟨0⟩ .started, .observe self ⟨1⟩ .started,
    .observe self ⟨0⟩ (.target arrival), .observe self ⟨1⟩ (.target arrival),
    .observe self ⟨0⟩ (.anyTarget arrival), .observe self ⟨1⟩ (.anyTarget arrival),
    .observe self ⟨0⟩ (.target stop), .observe self ⟨1⟩ (.target stop),
    .observe self ⟨1⟩ (.anyTarget stop), .handleFault ⟨2⟩ (.command "continue" .notRunning)]

end Refusing

open Refusing in
theorem recovers_refused :
    (∃ c w₁ w₂, self.Recovers host (·.2) c .proceed .notRunning w₁ true w₂ ∧
      run (self.command host .proceed) caller (watched .inline) = (.ok (.ok ()), w₂) ∧
      w₂.host.2 = heard) ∧
    ∃ c w₁ accepted w₂ w₃, self.Recovers host (·.2) c .stop .notRunning w₁ accepted w₂ ∧
      run (self.workNext host) ⟨.worker self, [], []⟩
        (run (self.command host .stop) caller (watched .worker)).2 = (.ok true, w₃) ∧
      w₃.host.2 = w₂.host.2 ∧ (w₃.session self).faults = [.command "stop" .notRunning] := by
  constructor
  · obtain ⟨w₀, -, -, hinline⟩ := listening.recovers_once self caller (k := .proceed)
      nofun rfl (w := watched .inline) rfl rfl
    obtain ⟨w₁, hrefused⟩ := refuses .proceed (((caller.inside self).locking self).locking self) w₀
    obtain ⟨accepted, w₂, hrecovers, hcommand⟩ := hinline .notRunning w₁ hrefused
    have hanswer : (run (self.command host .proceed) caller (watched .inline)).1 =
        .ok (.ok ()) := rfl
    have hheard : (run (self.command host .proceed) caller (watched .inline)).2.host.2 = heard :=
      rfl
    rw [hcommand] at hanswer hheard
    cases accepted with
    | false => cases hanswer
    | true => exact ⟨_, _, w₂, hrecovers, hcommand, hheard⟩
  · obtain ⟨w₀, -, -, -, hworker⟩ := listening.recovers_once self caller (k := .stop)
      nofun rfl (w := watched .worker) rfl rfl
    let w := (run (self.command host .stop) caller (watched .worker)).2
    obtain ⟨w₁, hrefused⟩ := refuses .stop (Scope.locking ⟨.worker self, [], []⟩ self)
      (w.withSession self fun x => { x with queue := ⟨[], [.stop]⟩ })
    obtain ⟨accepted, w₂, hrecovers, hwork⟩ := hworker w _ .notRunning w₁ rfl hrefused
    have hfaults : ((run (self.workNext host) ⟨.worker self, [], []⟩ w).2.session self).faults =
        [.command "stop" .notRunning] := by decide +kernel
    rw [hwork] at hfaults
    exact ⟨_, _, accepted, w₂, _, hrecovers, hwork, rfl, hfaults⟩

end DebugSession
