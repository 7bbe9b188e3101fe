import DebugSession.Proofs.Disposal
import DebugSession.Proofs.Recall

namespace DebugSession

open Act

inductive Entry
  | happened (s : SessionId) (t : Transition)
  | seen (lives : Array Lifecycle)

abbrev WithHistory (σ : Type) := σ × List Entry

def history (s : SessionId) (log : List Entry) : List Transition :=
  log.filterMap fun
    | .happened s' t => if s' = s then some t else none
    | .seen _ => none

/-- The lives of the sessions are told by what has happened to them. -/
def Tells (log : List Entry) (lives : Array Lifecycle) : Prop :=
  ∀ (s : SessionId) (l : Lifecycle), lives[s.index]? = some l → l.ToldBy (history s log)

/-- They are now, and they were whenever they were looked at. -/
structure Told (log : List Entry) (lives : Array Lifecycle) : Prop where
  now : Tells log lives
  ever : ∀ past seen later, log = past ++ .seen seen :: later → Tells past seen

section Logs

variable {log : List Entry} {lives : Array Lifecycle}

theorem history_append (s : SessionId) (log log' : List Entry) :
    history s (log ++ log') = history s log ++ history s log' := List.filterMap_append

theorem Told.seen (h : Told log lives) : Told (log ++ [.seen lives]) lives := by
  constructor
  · intro s l hl
    rw [history_append]
    exact (List.append_nil (history s log)).symm ▸ h.now s l hl
  · intro past seen later heq
    rcases append_singleton_eq heq with ⟨rfl, he, -⟩ | ⟨rest, -, hlog⟩
    · cases he
      exact h.now
    · exact h.ever past seen rest hlog

theorem Told.happened (h : Told log lives) (s : SessionId) (t : Transition) :
    Told (log ++ [.happened s t]) (lives.modify s.index (·.after t)) := by
  constructor
  · intro s' l hl
    rw [Array.getElem?_modify] at hl
    rw [history_append]
    by_cases hs : s = s'
    · subst hs
      rw [if_pos rfl] at hl
      obtain ⟨l', hl', rfl⟩ := Option.map_eq_some_iff.mp hl
      have htold : (l'.after t).ToldBy (history s log ++ [t]) := ((h.now s l' hl').after t).told
      simpa [history] using htold
    · have hindex : s.index ≠ s'.index := fun heq => hs (congrArg SessionId.mk heq)
      rw [if_neg hindex] at hl
      simpa [history, hs] using h.now s' l hl
  · intro past seen later heq
    rcases append_singleton_eq heq with ⟨-, he, -⟩ | ⟨rest, -, hlog⟩
    · cases he
    · exact h.ever past seen rest hlog

end Logs

def Command.ending : Command → Option Transition
  | .dispose => some .disposed
  | _ => none

def Session.outset (x : Session) (k : Command) : Option Transition :=
  if k.needsLiveSession && x.lifecycle.disposed then none
  else if k.resumes then some .resumed
  else if x.config.dispatch = .inline then k.ending
  else none

theorem Session.outset_taking (k : Command) (x : Session) : (x.taking k).outset k = x.outset k := by
  unfold taking
  repeat' split
  all_goals rfl

def Command.aftermath (k : Command) (done : Bool) : Option Transition :=
  if done then
    match k with
    | .attach _ _ => some .attached
    | .detach => some .detached
    | _ => none
  else k.recovery.map .reported

namespace World

variable {σ : Type}

def lives (w : World σ) : Array Lifecycle := w.sessions.map (·.lifecycle)

def moved (w : World σ) (s : SessionId) (t : Option Transition) : World σ :=
  t.elim w fun t => w.withSession s fun x => { x with lifecycle := x.lifecycle.after t }

def outset (w : World σ) (s : SessionId) (k : Command) (c : Scope) : Option Transition :=
  if k.check.isOk && w.isLive s c then (w.session s).outset k else none

def wrote (w : World (WithHistory σ)) (es : List Entry) : World (WithHistory σ) :=
  { w with host := (w.host.1, w.host.2 ++ es) }

theorem lives_getElem? {w : World σ} {s : SessionId} (hs : s.index < w.sessions.size) :
    w.lives[s.index]? = some (w.session s).lifecycle := by
  rw [lives, Array.getElem?_map, session, Array.getD_eq_getD_getElem?, Array.getElem?_eq_getElem hs]
  rfl

theorem size_lives (w : World σ) : w.lives.size = w.sessions.size := Array.size_map

variable {w : World σ} {s : SessionId}

theorem lives_withSession {m : Session → Session} {g : Lifecycle → Lifecycle}
    (hm : ∀ x, (m x).lifecycle = g x.lifecycle) :
    (w.withSession s m).lives = w.lives.modify s.index g := by
  apply Array.ext_getElem?
  intro i
  rw [lives, lives, Array.getElem?_map, Array.getElem?_modify, Array.getElem?_map,
    withSession_getElem?]
  split
  · rw [Option.map_map, Option.map_map]
    exact congrArg (Option.map · _) (funext hm)
  · rfl

theorem lives_withSession_of_eq {m : Session → Session} (hm : ∀ x, (m x).lifecycle = x.lifecycle) :
    (w.withSession s m).lives = w.lives := by
  rw [lives_withSession (g := id) hm]
  apply Array.ext_getElem?
  intro i
  rw [Array.getElem?_modify, Option.map_id, id, ite_self]

theorem lives_moved (w : World σ) (s : SessionId) (t : Option Transition) :
    (w.moved s t).lives = w.lives.modify s.index fun l => t.elim l l.after := by
  cases t with
  | none => exact (lives_withSession_of_eq fun _ => rfl).symm.trans (lives_withSession fun _ => rfl)
  | some t => exact lives_withSession fun _ => rfl

end World

def World.Told {σ : Type} (w : World (WithHistory σ)) : Prop := DebugSession.Told w.host.2 w.lives

/-- What holds of a world and any that it comes to: what is written stays, and it goes on to tell
the lives of the sessions. -/
structure Faithful {σ : Type} (w w' : World (WithHistory σ)) : Prop where
  size : w'.sessions.size = w.sessions.size
  log : w.host.2 <+: w'.host.2
  told : w.Told → w'.Told

namespace Faithful

variable {σ : Type} {w w' w'' : World (WithHistory σ)}

theorem of_eq (hlog : w'.host.2 = w.host.2) (hlives : w'.lives = w.lives) : Faithful w w' := by
  refine ⟨?_, hlog ▸ List.prefix_rfl, ?_⟩
  · rw [← w'.size_lives, hlives, w.size_lives]
  · rw [World.Told, World.Told, hlog, hlives]
    exact id

theorem trans (h : Faithful w w') (h' : Faithful w' w'') : Faithful w w'' :=
  ⟨h'.size.trans h.size, h.log.trans h'.log, fun htold => h'.told (h.told htold)⟩

theorem withSession {s : SessionId} {m : Session → Session}
    (hm : ∀ x, (m x).lifecycle = x.lifecycle) : Faithful w (w.withSession s m) :=
  of_eq rfl (World.lives_withSession_of_eq hm)

/-- What comes next may come after a change that is no matter of anyone's life. -/
theorem moved {s : SessionId} {m : Session → Session}
    (hm : ∀ x, (m x).lifecycle = x.lifecycle) (t : Option Transition) :
    Faithful (w.moved s t) ((w.withSession s m).moved s t) := by
  refine of_eq ?_ ?_
  · cases t <;> rfl
  · rw [World.lives_moved, World.lives_moved, World.lives_withSession_of_eq hm]

theorem happened (w : World (WithHistory σ)) (s : SessionId) (t : Option Transition) :
    Faithful w ((w.wrote (t.map (.happened s)).toList).moved s t) := by
  cases t with
  | none => exact of_eq (List.append_nil _) rfl
  | some t =>
      refine ⟨World.size_withSession, List.prefix_append _ _, fun htold => ?_⟩
      rw [World.Told, World.lives_moved]
      exact htold.happened s t

theorem seen (w : World (WithHistory σ)) : Faithful w (w.wrote [.seen w.lives]) :=
  ⟨rfl, List.prefix_append _ _, Told.seen⟩

theorem course (σ : Type) : World.Course (Faithful (σ := σ)) where
  same := fun hhost hsessions => of_eq (congrArg Prod.snd hhost) (congrArg (Array.map _) hsessions)
  trans := trans
  aside := fun _ _ _ hm => withSession hm.lifecycle

end Faithful

namespace Act

variable {σ α β : Type}

def faithful (σ : Type) : Act.Law (WithHistory σ) := (Faithful.course σ).law

def write (es : List Entry) : Act (WithHistory σ) Unit := modifyHost fun m => (m.1, m.2 ++ es)

def record (s : SessionId) (t : Option Transition) : Act (WithHistory σ) Unit :=
  write (t.map (.happened s)).toList

def look : Act (WithHistory σ) Unit := do write [.seen (← get).lives]

theorem look_obeys : Obeys (faithful σ) look := fun _ w => Faithful.seen w

def Settles (s : SessionId) (t : Option Transition) (a : Act (WithHistory σ) α) : Prop :=
  ∀ c w, Faithful (w.moved s t) (run a c w).2

namespace Settles

variable {s : SessionId} {t : Option Transition} {a : Act (WithHistory σ) α}

theorem bind {f : α → Act (WithHistory σ) β} (ha : Settles s t a)
    (hf : ∀ x, Obeys (faithful σ) (f x)) : Settles s t (a >>= f) := by
  intro c w
  have hfirst := ha c w
  rw [run_bind]
  rcases hrun : run a c w with ⟨p | x, w'⟩ <;> rw [hrun] at hfirst
  · exact hfirst
  · exact hfirst.trans (hf x c w')

theorem of_obeys (ha : Obeys (faithful σ) a) : Settles s none a := ha

theorem locked (ha : Settles s t a) : Settles s t (Act.locked s a) := fun _ w => ha _ w

theorem recorded (ha : Settles s t a) : Obeys (faithful σ) (do record s t; a) := fun c w =>
  (Faithful.happened w s t).trans (ha c _)

theorem transition (s : SessionId) (t : Transition) :
    Settles s (some t) (Act.transition s t : Act (WithHistory σ) Unit) :=
  fun _ _ => .of_eq rfl rfl

end Settles

end Act

section Telling

variable {σ : Type}

variable (h : Host (WithHistory σ))

def Operation.tell (s : SessionId) : (o : Operation) → Act (WithHistory σ) o.Answer
  | .command k => do
    record s ((← get).outset s k (← read))
    s.command h k
  | .targetEvent e => entering s () do
    record s (some (.reported e.kind))
    s.targetEvent h e
  | .started t => entering s () do
    record s (some (.reported .ready))
    s.targetEvent h { kind := .ready, thread := t }
    record s (some .initialized)
    s.getReady h
  | o => o.perform h s

def HostProgram.tell {α : Type} (access : Access (WithHistory σ))
    (types : String → Act (WithHistory σ) (Option String)) : HostProgram σ α → Act (WithHistory σ) α
  | done x => pure x
  | panic p => throw p
  | consult next => do (next (← Act.host).1).tell access types
  | remember f next => do
    modifyHost fun m => (f m.1, m.2)
    next.tell access types
  | perform s o next => do
    let x ← access s o
    look
    (next x).tell access types
  | arrange s m _ next => do
    modifySession s m
    next.tell access types
  | ask name next => do (next (← types name)).tell access types

end Telling

def HostBehavior.tell {σ : Type} (behavior : HostBehavior σ) (access : Access (WithHistory σ))
    (x : Contact) (types : String → Act (WithHistory σ) (Option String)) :
    Act (WithHistory σ) x.Answer := do
  look
  (behavior x).tell access types

def watched {σ : Type}
    (call : (x : Contact) → (String → Act (WithHistory σ) (Option String)) →
      Act (WithHistory σ) x.Answer) :
    (x : Contact) → (String → Act (WithHistory σ) (Option String)) → Act (WithHistory σ) x.Answer
  | .answer s (.command k), types => do
    let r ← call (.answer s (.command k)) types
    record s (k.aftermath r.isOk)
    return r
  | x, types => call x types

def Host.watching {σ : Type} (rest : Host (WithHistory σ))
    (call : (x : Contact) → (String → Act (WithHistory σ) (Option String)) →
      Act (WithHistory σ) x.Answer) : Host (WithHistory σ) :=
  rest.calling (watched call)

def HostBehavior.teller {σ : Type} (behavior : HostBehavior σ) (rest : Host (WithHistory σ)) :
    Nat → Host (WithHistory σ)
  | 0 => rest.watching (behavior.tell fun _ _ => throw ⟨some "stack overflow"⟩)
  | n + 1 => rest.watching (behavior.tell fun s o => o.tell (behavior.teller rest n) s)

def Move.tell {σ : Type} (h : Host (WithHistory σ)) (w : World (WithHistory σ)) :
    Move → World (WithHistory σ)
  | perform t s o => (run (o.tell h s) ⟨t, [], []⟩ w).2
  | arrange s m _ => w.withSession s m
  | take s =>
    match (w.session s).queue.take? with
    | none => w
    | some (_, q) => w.withSession s ({ · with queue := q })
  | carryOut s k =>
    if k ∈ (w.session s).queue.running then
      (run (do record s k.ending; s.work h k) ⟨.worker s, [], []⟩ w).2.finish s k
    else w

section Operations

variable {σ : Type} (rest : Host (WithHistory σ))
  {call : (x : Contact) → (String → Act (WithHistory σ) (Option String)) →
    Act (WithHistory σ) x.Answer}

theorem perform_watching (s : SessionId) {o : Operation} (ho : o.isEventful = false) :
    o.perform (rest.watching call) s = o.perform (rest.calling call) s := by
  cases o with
  | command k | targetEvent e | started t => cases ho
  | _ => rfl

variable (abides : (rest.calling call).Abides (faithful σ))

include abides

theorem targetEvent_settles (s : SessionId) (e : TargetEvent) :
    Settles s (some (.reported e.kind)) (s.targetEvent (rest.watching call) e) := by
  have hnoting : Settles s (some (.reported e.kind))
      (modifySession s (SessionId.noting · (SessionId.attachEvent s e)) :
        Act (WithHistory σ) Unit) :=
    fun _ w => .of_eq rfl <|
      (World.lives_withSession fun _ => rfl).trans (w.lives_moved s (some (.reported e.kind))).symm
  exact hnoting.bind fun _ => (abides.emitTo s _).bind fun _ => abides.emitTo s _

theorem recover_settles (s : SessionId) (k : Command) (err : EngineError) :
    Settles s (k.recovery.map .reported) (s.recover (rest.watching call) k err) := by
  have hfault : Obeys (faithful σ) (do
      return if ← s.offerFault (rest.watching call) (.command k.name err) then Except.ok ()
        else Except.error (SessionError.command k.name err) : Act (WithHistory σ) _) :=
    (abides.offerFault s _).bind fun _ => Obeys.pure _
  simp only [SessionId.recover]
  cases k.recovery with
  | none => exact .of_obeys hfault
  | some kind => exact (targetEvent_settles rest abides s { kind := kind }).bind fun _ => hfault

omit abides in
theorem settle_settles (s : SessionId) (k : Command) :
    Settles s (k.aftermath true) (s.settle k : Act (WithHistory σ) Unit) := by
  cases k with
  | attach process options => exact .transition s .attached
  | detach => exact .transition s .detached
  | _ => exact .of_obeys (Obeys.pure ())

theorem tearDown_settles (s : SessionId) :
    Settles s (some .disposed) (s.tearDown (rest.watching call)) := by
  intro c w
  simp only [SessionId.tearDown]
  rw [SessionId.run_session_bind]
  cases hx : (w.session s).lifecycle.disposed with
  | true =>
      -- The session was disposed of before, and what is written of it now holds already.
      have hsame : w.moved s (some .disposed) = w := by
        apply World.withSession_eq_self
        simp [Lifecycle.after, ← hx]
      exact .of_eq (congrArg (·.host.2) hsame.symm) (congrArg World.lives hsame.symm)
  | false =>
      have hstore : Obeys (faithful σ) (unless (w.session s).ownsStore do
          s.setStore (rest.watching call) none) :=
        Obeys.ite (Obeys.pure ()) (abides.setStore s none)
      exact (Settles.transition s .disposed).bind (fun _ => hstore) c w

theorem execute_settles (s : SessionId) (k : Command) :
    Settles s k.ending (s.execute (rest.watching call) k) := by
  by_cases hk : k = .dispose
  · subst hk
    rw [SessionId.execute_dispose]
    exact Settles.locked ((tearDown_settles rest abides s).bind fun _ => Obeys.pure _)
  · have hending : k.ending = none := by
      cases k with
      | dispose => exact absurd rfl hk
      | _ => rfl
    have hanswer : (((rest.watching call).engine s).answer (.command k)).run = (do
        let r ← call (.answer s (.command k)) fun _ => pure none
        record s (k.aftermath r.isOk)
        return r : Act (WithHistory σ) _) := rfl
    -- What the engine's answer brings about is written as soon as it is there, and comes about next.
    rw [hending, s.execute_eq _ hk, hanswer]
    simp only [bind_assoc, pure_bind]
    refine Settles.of_obeys (Obeys.locked s ((abides.answer s (.command k)).bind fun r => ?_))
    cases r with
    | ok answer => exact ((settle_settles s k).bind fun _ => Obeys.pure _).recorded
    | error err => exact (recover_settles rest abides s k err).recorded

theorem announceStart_settles (s : SessionId) :
    Settles s (some .resumed) (s.announceStart (rest.watching call)) :=
  (Settles.transition s .resumed).bind fun _ => abides.emitTo s .started

theorem getReady_settles (s : SessionId) :
    Settles s (some .initialized) (s.getReady (rest.watching call)) := by
  have hbind : Obeys (faithful σ) (s.bindAll (rest.watching call)) :=
    (abides.breakpoints s).bind fun st => abides.bindEvents s st
  exact ((Settles.transition s .initialized).bind fun _ => hbind).locked

theorem handOver_settles (s : SessionId) (k : Command) (dispatch : Dispatch) :
    Settles s (if dispatch = .inline then k.ending else none)
      (s.handOver (rest.watching call) k dispatch) := by
  cases dispatch with
  | inline => exact execute_settles rest abides s k
  | worker => exact fun _ _ => .withSession fun _ => rfl

theorem accept_settles (s : SessionId) (k : Command) (c : Scope) (w : World (WithHistory σ)) :
    Faithful (w.moved s ((w.session s).outset k))
      (run (s.accept (rest.watching call) k) c w).2 := by
  let x := w.session s
  change Faithful (w.moved s (x.outset k)) (run (do
    if k.needsLiveSession && x.lifecycle.disposed then return .ok ()
    if k.resumes then s.announceStart (rest.watching call)
    s.handOver (rest.watching call) k x.config.dispatch) (c.locking s) w).2
  have hhandOver := handOver_settles rest abides s k x.config.dispatch
  unfold Session.outset
  cases k.needsLiveSession && x.lifecycle.disposed with
  | true => exact .of_eq rfl rfl
  | false =>
      cases hresumes : k.resumes with
      | false => exact hhandOver _ w
      | true =>
          have hending : (if x.config.dispatch = .inline then k.ending else none) = none := by
            cases k with
            | dispose => cases hresumes
            | _ => exact ite_self none
          rw [hending] at hhandOver
          exact (announceStart_settles rest abides s).bind (fun _ => hhandOver) _ w

theorem command_settles (s : SessionId) (k : Command) (c : Scope) (w : World (WithHistory σ)) :
    Faithful (w.moved s (w.outset s k c)) (run (s.command (rest.watching call) k) c w).2 := by
  unfold World.outset
  cases hcheck : k.check with
  | error e =>
      rw [s.run_command_of_error _ hcheck]
      exact .of_eq rfl rfl
  | ok u =>
      cases hlive : w.isLive s c with
      | false =>
          rw [s.run_command_of_not_live _ hcheck hlive]
          exact .of_eq rfl rfl
      | true =>
          let w₁ := w.withSession s (·.taking k)
          have hrun : run (s.command (rest.watching call) k) c w =
              run (s.accept (rest.watching call) k) (c.inside s) w₁ := by
            simp only [SessionId.command, hcheck]
            refine (s.run_entering_of_live _ hlive).trans ?_
            change run (do s.takeOptions k; s.accept (rest.watching call) k) (c.inside s) w = _
            rw [run_bind, SessionId.run_takeOptions]
          have haccept := accept_settles rest abides s k (c.inside s) w₁
          have houtset : (w₁.session s).outset k = (w.session s).outset k :=
            World.map_session_withSession (f := (·.outset k)) (Session.outset_taking k) s
          rw [houtset] at haccept
          rw [hrun]
          exact (Faithful.moved (Session.lifecycle_taking k) _).trans haccept

theorem tell_obeys (s : SessionId) (o : Operation) :
    Obeys (faithful σ) (o.tell (rest.watching call) s) := by
  cases hevent : o.isEventful with
  | false =>
      have htell : o.tell (rest.watching call) s = o.perform (rest.watching call) s := by
        cases o with
        | command k | targetEvent e | started t => cases hevent
        | _ => rfl
      rw [htell, perform_watching rest s hevent]
      exact abides.perform_uneventful s hevent
  | true =>
      cases o with
      | command k =>
          intro c w
          let w' := w.wrote ((w.outset s k c).map (.happened s)).toList
          have hcommand : Faithful (w'.moved s (w.outset s k c))
              (run (s.command (rest.watching call) k) c w').2 :=
            command_settles rest abides s k c w'
          exact (Faithful.happened w s _).trans hcommand
      | targetEvent e => exact Obeys.entering (targetEvent_settles rest abides s e).recorded
      | started t =>
          have hready := (targetEvent_settles rest abides s { kind := .ready, thread := t }).recorded
          have hopening := hready.bind fun _ => (getReady_settles rest abides s).recorded
          simp only [bind_assoc] at hopening
          exact Obeys.entering hopening
      | _ => cases hevent

theorem faithful_carryOut (s : SessionId) (k : Command) (c : Scope) (w : World (WithHistory σ)) :
    Faithful w ((run (do record s k.ending; s.work (rest.watching call) k) c w).2.finish s k) := by
  have hwork : Settles s k.ending (s.work (rest.watching call) k) := by
    intro c w
    rw [SessionId.run_work]
    exact (execute_settles rest abides s k c w).trans (.withSession fun _ => rfl)
  exact (hwork.recorded c w).trans (.withSession fun _ => rfl)

theorem faithful_move (w : World (WithHistory σ)) (m : Move) :
    Faithful w (m.tell (rest.watching call) w) := by
  cases m with
  | perform t s o => exact tell_obeys rest abides s o ⟨t, [], []⟩ w
  | arrange s m hm => exact .withSession hm.lifecycle
  | take s =>
      simp only [Move.tell]
      split
      · exact .of_eq rfl rfl
      · exact .withSession fun _ => rfl
  | carryOut s k =>
      simp only [Move.tell]
      split
      · exact faithful_carryOut rest abides s k _ w
      · exact .of_eq rfl rfl

theorem faithful_foldl (w : World (WithHistory σ)) (moves : List Move) :
    Faithful w (moves.foldl (Move.tell (rest.watching call)) w) := by
  induction moves generalizing w with
  | nil => exact .of_eq rfl rfl
  | cons m rest' ih => exact (faithful_move rest abides w m).trans (ih _)

end Operations

section Hosts

variable {σ : Type}

theorem HostProgram.tell_obeys {α : Type} {access : Access (WithHistory σ)}
    {types : String → Act (WithHistory σ) (Option String)}
    (haccess : ∀ s o, Obeys (faithful σ) (access s o))
    (htypes : ∀ name, Obeys (faithful σ) (types name)) (x : HostProgram σ α) :
    Obeys (faithful σ) (x.tell access types) := by
  induction x with
  | done x => exact Obeys.pure x
  | panic p => exact Obeys.throw p
  | consult next ih => exact Obeys.get (fun _ => rfl) fun w => ih w.host.1
  | remember f next ih =>
      have hremember : Obeys (faithful σ) (modifyHost fun m : WithHistory σ => (f m.1, m.2)) :=
        fun _ _ => .of_eq rfl rfl
      exact hremember.bind fun _ => ih
  | perform s o next ih =>
      exact (haccess s o).bind fun x => look_obeys.bind fun _ => ih x
  | arrange s m hm next ih =>
      have harrange : Obeys (faithful σ) (modifySession s m) := fun _ _ => .withSession hm.lifecycle
      exact harrange.bind fun _ => ih
  | ask name next ih => exact (htypes name).bind fun x => ih x

namespace HostBehavior

variable (behavior : HostBehavior σ) (rest : Host (WithHistory σ))

theorem calling_tell_abides {access : Access (WithHistory σ)}
    (haccess : ∀ s o, Obeys (faithful σ) (access s o)) :
    (rest.calling (behavior.tell access)).Abides (faithful σ) :=
  rest.calling_abides fun x _ htypes =>
    look_obeys.bind fun _ => HostProgram.tell_obeys haccess htypes (behavior x)

theorem exists_abides (n : Nat) : ∃ call, behavior.teller rest n = rest.watching call ∧
    (rest.calling call).Abides (faithful σ) := by
  -- On the depth, as a call gets at sessions through the host of the next depth.
  induction n with
  | zero => exact ⟨_, rfl, behavior.calling_tell_abides rest fun _ _ => Obeys.throw _⟩
  | succ n ih =>
      obtain ⟨call, hhost, abides⟩ := ih
      refine ⟨_, rfl, behavior.calling_tell_abides rest fun s o => ?_⟩
      rw [hhost]
      exact DebugSession.tell_obeys rest abides s o

end HostBehavior

end Hosts

theorem World.Told.fresh {σ : Type} {w : World (WithHistory σ)} (hlog : w.host.2 = [])
    (hfresh : ∀ x ∈ w.sessions, x.lifecycle = {}) : w.Told := by
  rw [World.Told, hlog]
  constructor
  · intro s l hl
    obtain ⟨x, hx, rfl⟩ := Array.mem_map.mp (Array.mem_of_getElem? hl)
    rw [hfresh x hx]
    exact Lifecycle.follows_nil.told
  · intro past seen later heq
    cases past <;> cases heq

/-- The lives of all sessions are told by what has happened to them, when a run ends and whenever
they were looked at in it: in each call of the host, and when an operation asked for in one has
returned. A session that is disposed of remains so. -/
theorem lives_told {σ : Type} (behavior : HostBehavior σ) (rest : Host (WithHistory σ)) (n : Nat)
    {w : World (WithHistory σ)} (hlog : w.host.2 = []) (hfresh : ∀ x ∈ w.sessions, x.lifecycle = {})
    (moves more : List Move) :
    let w₁ := moves.foldl (Move.tell (behavior.teller rest n)) w
    let w₂ := more.foldl (Move.tell (behavior.teller rest n)) w₁
    w₁.Told ∧ ∀ s : SessionId, s.index < w.sessions.size →
      (w₁.session s).lifecycle.phase = .disposed → (w₂.session s).lifecycle.phase = .disposed := by
  intro w₁ w₂
  obtain ⟨call, hhost, abides⟩ := behavior.exists_abides rest n
  have hfirst : Faithful w w₁ := by
    simp only [w₁, hhost]
    exact faithful_foldl rest abides w moves
  have hsecond : Faithful w₁ w₂ := by
    simp only [w₂, hhost]
    exact faithful_foldl rest abides w₁ more
  have htold : w₁.Told := hfirst.told (.fresh hlog hfresh)
  refine ⟨htold, fun s hs hdisposed => ?_⟩
  have hs₁ : s.index < w₁.sessions.size := hfirst.size ▸ hs
  have hs₂ : s.index < w₂.sessions.size := hsecond.size ▸ hs₁
  have hlife₁ := htold.now s _ (World.lives_getElem? hs₁)
  have hlife₂ := (hsecond.told htold).now s _ (World.lives_getElem? hs₂)
  rw [hlife₁.phase_eq_disposed_iff] at hdisposed
  obtain ⟨later, hlater⟩ := hsecond.log
  rw [hlife₂.phase_eq_disposed_iff, ← hlater, history_append]
  exact List.mem_append_left _ hdisposed

namespace Scripted

def halting : HostBehavior Simulation.Memory
  | .answer s (.command (.run _ _)) => .perform s (.started none) fun _ => .done (.ok ())
  | .answer _ (.command .proceed) => .done (.error .notRunning)
  | x => meddling x

def unwritten (dispatch : Dispatch) : World (WithHistory Simulation.Memory) :=
  { host := (default, [])
    sessions := #[Session.new { dispatch := dispatch } ⟨0⟩]
    routers := #[{}] }

def deferred (k : Command) : List Move :=
  [.perform (.caller 0) self (.command k), .take self, .carryOut self k]

def launch : Command := .run { command := "app" } {}

end Scripted

theorem lives_told_of_halting :
    let w := Scripted.unwritten .worker
    let w₁ := ([Scripted.launch, .proceed, .dispose].flatMap Scripted.deferred).foldl
      (Move.tell (Scripted.halting.teller (Simulation.host default) 3)) w
    let w₂ := (Scripted.deferred .proceed).foldl
      (Move.tell (Scripted.halting.teller (Simulation.host default) 3)) w₁
    w.host.2 = [] ∧ (∀ x ∈ w.sessions, x.lifecycle = {}) ∧ w₁.Told ∧
      (w₂.session Scripted.self).lifecycle.phase = .disposed ∧
      history Scripted.self w₁.host.2 = [.resumed, .reported .ready, .initialized, .resumed,
        .reported .stopped, .disposed] := by
  intro w w₁ w₂
  have hfresh : ∀ x ∈ w.sessions, x.lifecycle = {} := by
    intro x hx
    rw [Array.mem_singleton.mp hx]
    rfl
  have hphase : (w₁.session Scripted.self).lifecycle.phase = .disposed := by decide +kernel
  have htold := lives_told Scripted.halting (Simulation.host default) 3 (w := w) rfl hfresh
    ([Scripted.launch, .proceed, .dispose].flatMap Scripted.deferred) (Scripted.deferred .proceed)
  have hdisposed := htold.2 Scripted.self Nat.one_pos hphase
  have hhistory : history Scripted.self w₁.host.2 = [.resumed, .reported .ready, .initialized,
      .resumed, .reported .stopped, .disposed] := by decide +kernel
  exact ⟨rfl, hfresh, htold.1, hdisposed, hhistory⟩

end DebugSession
