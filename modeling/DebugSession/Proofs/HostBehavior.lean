import DebugSession.Proofs.Acceptance

namespace DebugSession

inductive Line
  | called (x : Contact)
  | issued (s : SessionId) (k : Command) (x : Session)
  | returned (s : SessionId) (k : Command) (r : Except Panic (Except SessionError Unit)) (x : Session)

abbrev Noted (σ : Type) := σ × List Line

/-- What a host does when it is called. It may ask for anything, commands too, and change what a
session leaves to its users. -/
inductive HostProgram (σ α : Type)
  | done (x : α)
  | panic (p : Panic)
  | consult (next : σ → HostProgram σ α)
  | remember (f : σ → σ) (next : HostProgram σ α)
  | perform (s : SessionId) (o : Operation) (next : o.Answer → HostProgram σ α)
  | arrange (s : SessionId) (m : Session → Session) (hm : Session.Aside m) (next : HostProgram σ α)
  | ask (name : String) (next : Option String → HostProgram σ α)

abbrev HostBehavior (σ : Type) := (x : Contact) → HostProgram σ x.Answer

section Notes

variable {σ : Type}

def World.noted (w : World (Noted σ)) (l : Line) : World (Noted σ) :=
  { w with host := (w.host.1, w.host.2 ++ [l]) }

def Act.note (l : Line) : Act (Noted σ) Unit := modifyHost fun m => (m.1, m.2 ++ [l])

def SessionId.issue (h : Host (Noted σ)) (s : SessionId) (k : Command) :
    Act (Noted σ) (Except SessionError Unit) := do
  Act.note (.issued s k (← Act.session s))
  let r ← Act.outcome (s.command h k)
  Act.note (.returned s k r (← Act.session s))
  match r with
  | .ok x => return x
  | .error p => throw p

def Operation.ask (h : Host (Noted σ)) (s : SessionId) : (o : Operation) → Act (Noted σ) o.Answer
  | .command k => s.issue h k
  | o => o.perform h s

theorem SessionId.run_issue (h : Host (Noted σ)) (s : SessionId) (k : Command) (c : Scope)
    (w : World (Noted σ)) {r : Except Panic (Except SessionError Unit) × World (Noted σ)}
    (hr : Act.run (s.command h k) c (w.noted (.issued s k (w.session s))) = r) :
    Act.run (s.issue h k) c w = (r.1, r.2.noted (.returned s k r.1 (r.2.session s))) := by
  have hrun : Act.run (s.issue h k) c w = Act.run (do
      let r ← Act.outcome (s.command h k)
      Act.note (.returned s k r (← Act.session s))
      match r with
      | .ok x => return x
      | .error p => throw p) c (w.noted (.issued s k (w.session s))) := rfl
  rw [hrun, Act.run_bind, Act.run_outcome, hr]
  rcases r with ⟨p | x, w'⟩ <;> rfl

def HostProgram.play {α : Type} (access : Access (Noted σ))
    (types : String → Act (Noted σ) (Option String)) : HostProgram σ α → Act (Noted σ) α
  | done x => pure x
  | panic p => throw p
  | consult next => do (next (← Act.host).1).play access types
  | remember f next => do
    Act.modifyHost fun m => (f m.1, m.2)
    next.play access types
  | perform s o next => do (next (← access s o)).play access types
  | arrange s m _ next => do
    Act.modifySession s m
    next.play access types
  | ask name next => do (next (← types name)).play access types

end Notes

namespace HostBehavior

variable {σ : Type} (behavior : HostBehavior σ) (rest : Host (Noted σ))

def call (access : Access (Noted σ)) (x : Contact)
    (types : String → Act (Noted σ) (Option String)) : Act (Noted σ) x.Answer := do
  Act.note (.called x)
  (behavior x).play access types

/-- Calls may be nested in one another up to a depth, where the stack overflows. -/
def host : Nat → Host (Noted σ)
  | 0 => rest.calling (behavior.call fun _ _ => throw ⟨some "stack overflow"⟩)
  | n + 1 => rest.calling (behavior.call fun s o => o.ask (host n) s)

end HostBehavior

end DebugSession
