import DebugSession.Proofs.Acceptance
import Mathlib.Logic.Function.Basic
import Mathlib.Logic.Relation

namespace DebugSession

inductive Hand
  | client (i : Nat)
  | worker (i : Nat)
  deriving DecidableEq

/-- Where a client is with a command. It has the lock of the session until it is away again. -/
inductive ClientStage
  | away
  | inside (k : Command)
  | admitted (k : Command)
  /-- The command is counted, but not in the queue yet. -/
  | sending (k : Command)
  | handedBack (k : Command)
  | working (k : Command)
  | leaving

/-- Where a worker is with a command. It has the lock of the session for the body only. -/
inductive WorkerStage
  | away
  | holding (k : Command)
  | working (k : Command)
  | worked (k : Command) (r : Except Panic (Except SessionError Unit))
  | reported (k : Command)

/-- What has become of a command; or someone found that there are none left. -/
inductive Mark
  | announced (k : Command)
  | accepted (k : Command)
  | taken (k : Command)
  | begun (k : Command)
  | ended (k : Command)
  | finished (k : Command)
  | foundIdle
  deriving DecidableEq

def Command.announcement (k : Command) : List Mark := if k.resumes then [.announced k] else []

def World.queue? {σ : Type} (w : World σ) (s : SessionId) : Option CommandQueue :=
  w.sessions[s.index]?.map (·.queue)

structure Shared (σ : Type) where
  world : World σ
  lock : Option Hand := none
  /-- How many commands are counted as not finished. -/
  pending : Nat := 0
  log : List Mark := []

def Shared.note {σ : Type} (x : Shared σ) (ms : List Mark) : Shared σ := { x with log := x.log ++ ms }

structure Crew (σ : Type) extends Shared σ where
  clients : Nat → ClientStage := fun _ => .away
  workers : Nat → WorkerStage := fun _ => .away

def Crew.afterClient {σ : Type} (x : Crew σ) (i : Nat) (c : ClientStage) (y : Shared σ) : Crew σ :=
  { toShared := y, clients := Function.update x.clients i c, workers := x.workers }

def Crew.afterWorker {σ : Type} (x : Crew σ) (i : Nat) (c : WorkerStage) (y : Shared σ) : Crew σ :=
  { toShared := y, clients := x.clients, workers := Function.update x.workers i c }

namespace Crew

variable {σ : Type} (x : Crew σ) (y : Shared σ) {i j : Nat} (c : ClientStage) (d : WorkerStage)

@[simp] theorem clients_afterClient_self : (x.afterClient i c y).clients i = c := by
  simp [afterClient]

@[simp] theorem clients_afterClient_of_ne (hji : j ≠ i) :
    (x.afterClient i c y).clients j = x.clients j := by
  simp [afterClient, hji]

@[simp] theorem workers_afterWorker_self : (x.afterWorker i d y).workers i = d := by
  simp [afterWorker]

@[simp] theorem workers_afterWorker_of_ne (hji : j ≠ i) :
    (x.afterWorker i d y).workers j = x.workers j := by
  simp [afterWorker, hji]

end Crew

section Steps

variable {σ : Type} (h : Host σ) (s : SessionId) (n i : Nat)

inductive ClientStep : ClientStage → Shared σ → ClientStage → Shared σ → Prop
  | enter (k : Command) (x : Shared σ) (hk : k.check = .ok ()) (hfree : x.lock = none) :
      ClientStep .away x (.inside k) { x with lock := some (.client i) }
  | takeIn (k : Command) (x : Shared σ) (w : World σ)
      (hrun : Act.run (s.takeIn h k) (s.inside (.caller i)) x.world = (.ok true, w)) :
      ClientStep (.inside k) x (.admitted k) { x.note k.announcement with world := w }
  | turnAway (k : Command) (x : Shared σ) (r : Except Panic Bool) (w : World σ) (hr : r ≠ .ok true)
      (hrun : Act.run (s.takeIn h k) (s.inside (.caller i)) x.world = (r, w)) :
      ClientStep (.inside k) x .leaving { x with world := w }
  | count (k : Command) (x : Shared σ) :
      ClientStep (.admitted k) x (.sending k)
        { x.note [.accepted k] with pending := x.pending + 1 }
  | send (k : Command) (x : Shared σ) (hn : 0 < n) :
      ClientStep (.sending k) x .leaving { x with world := x.world.accept s k }
  | handBack (k : Command) (x : Shared σ) (hn : n = 0) :
      ClientStep (.sending k) x (.handedBack k)
        { x.note [.taken k] with pending := x.pending - 1 }
  | begin (k : Command) (x : Shared σ) :
      ClientStep (.handedBack k) x (.working k) (x.note [.begun k])
  | work (k : Command) (x : Shared σ) :
      ClientStep (.working k) x .leaving
        { x.note [.ended k, .finished k] with
          world := (Act.run (s.work h k) (s.within (.caller i)) x.world).2 }
  | leave (x : Shared σ) : ClientStep .leaving x .away { x with lock := none }
  | visit (x : Shared σ) (hfree : x.lock = none) :
      ClientStep .away x .leaving { x with lock := some (.client i) }

inductive WorkerStep : WorkerStage → Shared σ → WorkerStage → Shared σ → Prop
  | take (k : Command) (x : Shared σ) (q : CommandQueue)
      (hq : (x.world.session s).queue.take? = some (k, q)) :
      WorkerStep .away x (.holding k)
        { x.note [.taken k] with world := x.world.withSession s ({ · with queue := q }) }
  | begin (k : Command) (x : Shared σ) (hfree : x.lock = none) :
      WorkerStep (.holding k) x (.working k) { x.note [.begun k] with lock := some (.worker i) }
  | carryOut (k : Command) (x : Shared σ) (r : Except Panic (Except SessionError Unit))
      (w : World σ) (hrun : Act.run (s.execute h k) ⟨.worker s, [], []⟩ x.world = (r, w)) :
      WorkerStep (.working k) x (.worked k r) { x.note [.ended k] with world := w, lock := none }
  | report (k : Command) (x : Shared σ) (r : Except Panic (Except SessionError Unit)) :
      WorkerStep (.worked k r) x (.reported k)
        { x with world := x.world.keep s (SessionId.unhandled k r) }
  | finish (k : Command) (x : Shared σ) :
      WorkerStep (.reported k) x .away
        { x.note [.finished k] with world := x.world.finish s k, pending := x.pending - 1 }

/-- One step of one thread, among any number of clients and `n` workers: it runs a piece of the
program that the thread runs when it is alone. -/
inductive Crew.Step (x : Crew σ) : Crew σ → Prop
  | client (i : Nat) (c : ClientStage) (y : Shared σ)
      (hstep : ClientStep h s n i (x.clients i) x.toShared c y) :
      Step x (x.afterClient i c y)
  | worker (i : Nat) (hi : i < n) (c : WorkerStage) (y : Shared σ)
      (hstep : WorkerStep h s i (x.workers i) x.toShared c y) :
      Step x (x.afterWorker i c y)
  /-- Someone who waits for all commands to be finished finds that nothing is pending. -/
  | findIdle (hpending : x.pending = 0) : Step x { x with log := x.log ++ [.foundIdle] }
  /-- Anything else that threads do, in whole or in part. It issues no commands. -/
  | other (w : World σ) (hqueue : w.queue? s = x.world.queue? s) : Step x { x with world := w }

def Crew.Reaches : Crew σ → Crew σ → Prop := Relation.ReflTransGen (Crew.Step h s n)

variable {h s n i} {x y : Shared σ} {k : Command}

/-- The mark is made where the session is marked running and its subscribers are told, and nowhere
else. -/
theorem ClientStep.announces (hstep : ClientStep h s n i (.inside k) x (.admitted k) y) :
    let w := x.world.withSession s (·.taking k)
    (y.log = x.log ++ [.announced k] ∧
      Act.run (do Act.transition s .resumed; s.emit h .started)
        ((s.inside (.caller i)).locking s) w = (.ok (), y.world)) ∨
    (k.resumes = false ∧ y.log = x.log ∧ y.world = w) := by
  cases hstep with
  | takeIn _ _ w hrun =>
      have hannounce := s.run_takeIn_of_ok h hrun
      cases hresumes : k.resumes with
      | true =>
          rw [hresumes] at hannounce
          exact .inl ⟨by simp [Shared.note, Command.announcement, hresumes], hannounce⟩
      | false =>
          rw [hresumes] at hannounce
          refine .inr ⟨rfl, by simp [Shared.note, Command.announcement, hresumes], ?_⟩
          exact (congrArg Prod.snd hannounce).symm

/-- The engine is asked before the mark of the end is made, and after that of the beginning, for
this is the step of a worker that has made it. -/
theorem WorkerStep.asks {d : WorkerStage} (hk : k ≠ .dispose)
    (hstep : WorkerStep h s i (.working k) x d y) :
    let c : Scope := Scope.locking ⟨.worker s, [], []⟩ s
    y.log = x.log ++ [.ended k] ∧
      match Act.run ((h.engine s).answer (.command k)).run c x.world with
      | (.ok (.ok _), w) => y.world = (Act.run (s.settle k) c w).2
      | (.ok (.error err), w) => y.world = (Act.run (s.recover h k err) c w).2
      | (.error _, w) => y.world = w := by
  cases hstep with
  | carryOut _ _ r w hrun =>
      have hworld : w = (Act.run (s.execute h k) ⟨.worker s, [], []⟩ x.world).2 :=
        (congrArg Prod.snd hrun).symm
      rw [s.run_execute h hk] at hworld
      refine ⟨rfl, ?_⟩
      change match Act.run ((h.engine s).answer (.command k)).run _ x.world with
        | (.ok (.ok _), w') => w = _
        | (.ok (.error err), w') => w = _
        | (.error _, w') => w = w'
      rcases hask : Act.run ((h.engine s).answer (.command k)).run _ x.world with
        ⟨p | err | answer, w'⟩ <;> rw [hask] at hworld
      · exact hworld
      · exact hworld
      · exact hworld.trans (Act.run_bind_pure_snd (s.settle k) _ _ w')

end Steps

namespace Crew

variable {σ : Type} {h : Host σ} {s : SessionId} {n i : Nat} {x : Crew σ}

theorem afterClient_self : x.afterClient i (x.clients i) x.toShared = x := by
  simp only [afterClient, Function.update_eq_self]

theorem afterWorker_self : x.afterWorker i (x.workers i) x.toShared = x := by
  simp only [afterWorker, Function.update_eq_self]

theorem Reaches.client {c d : ClientStage} {y z : Shared σ}
    (hrun : Reaches h s n x (x.afterClient i c y)) (hstep : ClientStep h s n i c y d z) :
    Reaches h s n x (x.afterClient i d z) := by
  have hself : (x.afterClient i c y).clients i = c := x.clients_afterClient_self y c
  have hafter : (x.afterClient i c y).afterClient i d z = x.afterClient i d z := by
    simp only [afterClient, Function.update_idem]
  rw [← hafter]
  exact hrun.tail (.client i d z (hself.symm ▸ hstep))

theorem Reaches.worker (hi : i < n) {c d : WorkerStage} {y z : Shared σ}
    (hrun : Reaches h s n x (x.afterWorker i c y)) (hstep : WorkerStep h s i c y d z) :
    Reaches h s n x (x.afterWorker i d z) := by
  have hself : (x.afterWorker i c y).workers i = c := x.workers_afterWorker_self y c
  have hafter : (x.afterWorker i c y).afterWorker i d z = x.afterWorker i d z := by
    simp only [afterWorker, Function.update_idem]
  rw [← hafter]
  exact hrun.tail (.worker i hi d z (hself.symm ▸ hstep))

/-- A client that is not interrupted does what the command does. -/
theorem reaches_command (haway : x.clients i = .away) (hfree : x.lock = none) {k : Command}
    (hk : k.check = .ok ()) (hheld : x.world.Holds s)
    (hdispatch : (x.world.session s).config.dispatch = .worker) (hn : 0 < n) :
    ∃ y : Shared σ, y.world = (Act.run (s.command h k) ⟨.caller i, [], []⟩ x.world).2 ∧
      y.lock = none ∧ Reaches h s n x (x.afterClient i .away y) := by
  have hrun := s.run_command h hk hheld (.caller i)
  have hstart : Reaches h s n x (x.afterClient i .away x.toShared) := by
    rw [← haway, afterClient_self]
    exact .refl
  have hinside := hstart.client (.enter k _ hk hfree)
  rcases htake : Act.run (s.takeIn h k) (s.inside (.caller i)) x.world with ⟨r, w⟩
  rw [htake, hdispatch] at hrun
  by_cases hr : r = .ok true
  · subst hr
    rw [hrun]
    exact ⟨_, rfl, rfl, ((((hinside.client (.takeIn k _ w htake)).client (.count k _)).client
      (.send k _ hn)).client (.leave _))⟩
  · have hw : (Act.run (s.command h k) ⟨.caller i, [], []⟩ x.world).2 = w := by
      rw [hrun]
      rcases r with p | (_ | _)
      · rfl
      · rfl
      · exact absurd rfl hr
    rw [hw]
    exact ⟨_, rfl, rfl, (hinside.client (.turnAway k _ r w hr htake)).client (.leave _)⟩

/-- A worker that is not interrupted does what a turn of a worker does. -/
theorem reaches_workNext (hi : i < n) (haway : x.workers i = .away) (hfree : x.lock = none) :
    ∃ y : Shared σ, y.world = (Act.run (s.workNext h) ⟨.worker s, [], []⟩ x.world).2 ∧
      y.lock = none ∧ Reaches h s n x (x.afterWorker i .away y) := by
  have hstart : Reaches h s n x (x.afterWorker i .away x.toShared) := by
    rw [← haway, afterWorker_self]
    exact .refl
  cases htake : (x.world.session s).queue.take? with
  | none =>
      have hnone : (Act.run (s.workNext h) ⟨.worker s, [], []⟩ x.world).2 = x.world := by
        simp only [SessionId.workNext]
        rw [SessionId.run_session_bind, htake]
        rfl
      exact ⟨x.toShared, hnone.symm, hfree, hstart⟩
  | some taken =>
      obtain ⟨k, q⟩ := taken
      rcases hrun : Act.run (s.execute h k) ⟨.worker s, [], []⟩
        (x.world.withSession s ({ · with queue := q })) with ⟨r, w⟩
      rw [s.run_workNext_of_take h htake hrun]
      exact ⟨_, rfl, rfl, (((((hstart.worker hi (.take k _ q htake)).worker hi
        (.begin k _ hfree)).worker hi (.carryOut k _ r w hrun)).worker hi (.report k _ r)).worker hi
        (.finish k _))⟩

end Crew

end DebugSession
