import DebugSession.Session.Dispatch

namespace DebugSession.Act

variable {σ α β : Type}

theorem run_bind (a : Act σ α) (f : α → Act σ β) (c : Scope) (w : World σ) :
    run (a >>= f) c w = match run a c w with
      | (.ok x, w') => run (f x) c w'
      | (.error p, w') => (.error p, w') := by
  change (match a c w with | (y, w') => ExceptT.bindCont (fun x => f x c) y w') = _
  change _ = (match a c w with
    | (.ok x, w') => run (f x) c w'
    | (.error p, w') => (.error p, w'))
  rcases a c w with ⟨p | x, w'⟩ <;> rfl

theorem run_bind_pure_snd (a : Act σ α) (f : α → β) (c : Scope) (w : World σ) :
    (run (do return f (← a)) c w).2 = (run a c w).2 := by
  rw [run_bind]
  rcases run a c w with ⟨p | x, w'⟩ <;> rfl

theorem run_tryCatch (a : Act σ α) (f : Panic → Act σ α) (c : Scope) (w : World σ) :
    run (tryCatch a f) c w = match run a c w with
      | (.ok x, w') => (.ok x, w')
      | (.error p, w') => run (f p) c w' := by
  change (ExceptT.tryCatch (a c) (fun p => f p c)) w = match a c w with
    | (.ok x, w') => (.ok x, w')
    | (.error p, w') => f p c w'
  simp only [ExceptT.tryCatch, ExceptT.mk, bind, StateT.bind]
  rcases a c w with ⟨p | x, w'⟩ <;> rfl

/-- Whatever happens in a program, its outcome is had. -/
theorem run_outcome (a : Act σ α) (c : Scope) (w : World σ) :
    run (outcome a) c w = (.ok (run a c w).1, (run a c w).2) := by
  simp only [outcome]
  rw [run_tryCatch, map_eq_pure_bind, run_bind]
  rcases run a c w with ⟨p | x, w'⟩ <;> rfl

theorem run_withReader (g : Scope → Scope) (a : Act σ α) (c : Scope) (w : World σ) :
    run (withReader g a) c w = run a (g c) w := rfl

theorem run_lifted (a : Act σ α) (c : Scope) (w : World σ) :
    run (liftM a : Eval (Act σ) α).run c w = match run a c w with
      | (.ok x, w') => (.ok (.ok x), w')
      | (.error p, w') => (.error p, w') := by
  have hlift : (liftM a : Eval (Act σ) α).run = (do
      let x ← a
      return .ok x) := by
    change (Except.ok <$> a : Act σ (Except EvalError α)) = _
    exact map_eq_pure_bind _ _
  rw [hlift, run_bind]
  rcases run a c w with ⟨p | x, w'⟩ <;> rfl

/-- What comes after a failed evaluation is not run. -/
theorem run_evaluated (a : Eval (Act σ) α) (f : α → Eval (Act σ) β) (c : Scope) (w : World σ) :
    run (a >>= f).run c w = match run a.run c w with
      | (.ok (.ok x), w') => run (f x).run c w'
      | (.ok (.error e), w') => (.ok (.error e), w')
      | (.error p, w') => (.error p, w') := by
  rw [ExceptT.run_bind, run_bind]
  rcases run a.run c w with ⟨p | e | x, w'⟩ <;> rfl

end DebugSession.Act

namespace DebugSession

def World.withSession {σ : Type} (w : World σ) (s : SessionId) (m : Session → Session) : World σ :=
  { w with sessions := w.sessions.modify s.index m }

theorem World.withSession_getElem? {σ : Type} {w : World σ} {s : SessionId} {m : Session → Session}
    (i : Nat) : (w.withSession s m).sessions[i]? =
      if s.index = i then w.sessions[i]?.map m else w.sessions[i]? :=
  Array.getElem?_modify

theorem Attempt.run_discard_bind {m : Type → Type} [Monad m] [LawfulMonad m] {α : Type}
    (x : Attempt m α) (y : m Unit) :
    (do discard x; (y : m Unit) : Attempt m Unit).run = do
      match ← x.run with
      | .ok _ => do y; return .ok ()
      | .error err => return .error err := by
  have hdiscard : (discard x).run = Except.map (fun _ => ()) <$> x.run :=
    ExceptT.run_map (fun _ => ()) x
  rw [ExceptT.run_bind, hdiscard, bind_map_left]
  congr 1
  funext r
  cases r with
  | ok _ => exact map_eq_pure_bind _ _
  | error err => rfl

theorem SessionId.run_body_dispose {σ : Type} (h : Host σ) (s : SessionId) :
    (s.body h .dispose).run = do s.tearDown h; return .ok () :=
  map_eq_pure_bind (fun _ => Except.ok ()) (s.tearDown h)

theorem SessionId.run_body {σ : Type} (h : Host σ) (s : SessionId) {k : Command}
    (hk : k ≠ .dispose) : (s.body h k).run = do
      match ← ((h.engine s).answer (.command k)).run with
      | .ok _ => do s.settle k; return .ok ()
      | .error err => return .error err := by
  have hbody : s.body h k = (do
      discard <| (h.engine s).answer (.command k)
      (s.settle k : Act σ Unit) : Attempt (Act σ) Unit) := by
    cases k with
    | dispose => exact absurd rfl hk
    | _ => rfl
  rw [hbody]
  refine (Attempt.run_discard_bind ((h.engine s).answer (.command k)) (s.settle k)).trans ?_
  congr 1
  funext r
  cases r <;> rfl

theorem SessionId.execute_dispose {σ : Type} (h : Host σ) (s : SessionId) :
    s.execute h .dispose = Act.locked s (do s.tearDown h; return .ok ()) := by
  rw [SessionId.execute, SessionId.run_body_dispose, bind_assoc]
  rfl

theorem SessionId.execute_eq {σ : Type} (h : Host σ) (s : SessionId) {k : Command}
    (hk : k ≠ .dispose) : s.execute h k = Act.locked s (do
      match ← ((h.engine s).answer (.command k)).run with
      | .ok _ => do s.settle k; return .ok ()
      | .error err => s.recover h k err) := by
  rw [SessionId.execute, s.run_body h hk, bind_assoc]
  congr 2
  funext r
  cases r with
  | ok _ => exact bind_assoc _ _ _
  | error err => exact pure_bind _ _

end DebugSession
