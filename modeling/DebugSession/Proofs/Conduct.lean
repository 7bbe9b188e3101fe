import DebugSession.Proofs.Unaware

namespace DebugSession

/-- A call out of the library. -/
inductive Contact
  | answer (s : SessionId) (q : EngineRequest)
  | allowsChanges (s : SessionId)
  | resolveExpression (s : SessionId) (expression : String) (l : SourceLocation)
  | observe (s : SessionId) (k : CallbackId) (e : SessionEvent)
  | storeChanged (k : CallbackId) (st : StoreId) (a : Announcement)
  | vetoes (k : CallbackId) (st : StoreId)
  | write (k : CallbackId) (isError : Bool) (text : String)
  | handleFault (k : CallbackId) (e : SessionError)
  | trace (k : CallbackId) (e : BreakEvent) (text : String)
  | customHit (k : CallbackId) (action : String) (e : BreakEvent)
  | resolveType (k : CallbackId) (name : String) (l : SourceLocation)
  | provideEvaluator (k : CallbackId) (extension : String)

@[reducible] def Contact.Answer : Contact → Type
  | answer _ q => Except EngineError q.Answer
  | allowsChanges _ | vetoes _ _ | handleFault _ _ | customHit _ _ _ => Bool
  | resolveExpression _ _ _ => Except EngineError (Option String)
  | resolveType _ _ _ => Option String
  | provideEvaluator _ _ => Option EvaluatorId
  | _ => Unit

namespace Host

variable {σ : Type} (rest : Host σ)
  (call : (x : Contact) → (String → Act σ (Option String)) → Act σ x.Answer)

def calling : Host σ :=
  { rest with
    engine := fun s =>
      { rest.engine s with
        answer := fun q => ExceptT.mk (call (.answer s q) fun _ => pure none)
        allowsChanges := call (.allowsChanges s) fun _ => pure none
        resolveExpression := fun expression l types =>
          ExceptT.mk (call (.resolveExpression s expression l) types) }
    observe := fun s k e => call (.observe s k e) fun _ => pure none
    storeChanged := fun k st a => call (.storeChanged k st a) fun _ => pure none
    vetoes := fun k st => call (.vetoes k st) fun _ => pure none
    write := fun k isError text => call (.write k isError text) fun _ => pure none
    handleFault := fun k e => call (.handleFault k e) fun _ => pure none
    trace := fun k e text => call (.trace k e text) fun _ => pure none
    customHit := fun k action e => call (.customHit k action e) fun _ => pure none
    resolveType := fun k name l => call (.resolveType k name l) fun _ => pure none
    provideEvaluator := fun k extension => call (.provideEvaluator k extension) fun _ => pure none }

variable {call} {R : Act.Rule σ} {L : Act.Law σ}

theorem calling_respects (hcall : ∀ x types, (∀ name, Act.Satisfies R (types name)) →
    Act.Satisfies R (call x types)) : (rest.calling call).Respects R := by
  have halone (x : Contact) : Act.Satisfies R (call x fun _ => pure none) :=
    hcall x _ fun _ => Act.Satisfies.pure none
  exact {
    answer := fun s q => halone (.answer s q)
    allowsChanges := fun s => halone (.allowsChanges s)
    resolveExpression := fun s expression l types htypes =>
      hcall (.resolveExpression s expression l) types htypes
    observe := fun s k e => halone (.observe s k e)
    storeChanged := fun k st a => halone (.storeChanged k st a)
    vetoes := fun k st => halone (.vetoes k st)
    write := fun k isError text => halone (.write k isError text)
    handleFault := fun k e => halone (.handleFault k e)
    trace := fun k e text => halone (.trace k e text)
    customHit := fun k action e => halone (.customHit k action e)
    resolveType := fun k name l => halone (.resolveType k name l)
    provideEvaluator := fun k extension => halone (.provideEvaluator k extension) }

theorem calling_abides (hcall : ∀ x types, (∀ name, Act.Obeys L (types name)) →
    Act.Obeys L (call x types)) : (rest.calling call).Abides L :=
  (rest.calling_respects (R := L.rule) hcall).abides

end Host

/-- What a host does when it is called, with a memory of its own. It issues no commands. -/
inductive Reaction (σ α : Type)
  | done (x : α)
  | panic (p : Panic)
  | consult (next : σ → Reaction σ α)
  | remember (f : σ → σ) (next : Reaction σ α)
  | perform (s : SessionId) (o : Operation) (ho : ∀ k, o ≠ .command k)
      (next : o.Answer → Reaction σ α)
  | ask (name : String) (next : Option String → Reaction σ α)

abbrev Conduct (σ : Type) := (x : Contact) → Reaction σ x.Answer

abbrev Journaled (σ : Type) := σ × List Contact

abbrev Access (σ : Type) := SessionId → (o : Operation) → Act σ o.Answer

namespace Reaction

variable {σ α : Type}

def play (access : Access (Journaled σ)) (types : String → Act (Journaled σ) (Option String)) :
    Reaction σ α → Act (Journaled σ) α
  | done x => pure x
  | panic p => throw p
  | consult next => do (next (← Act.host).1).play access types
  | remember f next => do
    Act.modifyHost fun m => (f m.1, m.2)
    next.play access types
  | perform s o _ next => do (next (← access s o)).play access types
  | ask name next => do (next (← types name)).play access types

end Reaction

namespace Conduct

variable {σ : Type} (conduct : Conduct σ) (rest : Host (Journaled σ))

def call (access : Access (Journaled σ)) (x : Contact)
    (types : String → Act (Journaled σ) (Option String) := fun _ => pure none) :
    Act (Journaled σ) x.Answer := do
  Act.modifyHost fun m => (m.1, m.2 ++ [x])
  (conduct x).play access types

def engine (access : Access (Journaled σ)) (s : SessionId) : Engine (Act (Journaled σ)) :=
  { rest.engine s with
    answer := fun q => ExceptT.mk (conduct.call access (.answer s q))
    allowsChanges := conduct.call access (.allowsChanges s)
    resolveExpression := fun expression l types =>
      ExceptT.mk (conduct.call access (.resolveExpression s expression l) types) }

def hostWith (access : Access (Journaled σ)) : Host (Journaled σ) :=
  { rest with
    engine := conduct.engine rest access
    observe := fun s k e => conduct.call access (.observe s k e)
    storeChanged := fun k st a => conduct.call access (.storeChanged k st a)
    vetoes := fun k st => conduct.call access (.vetoes k st)
    write := fun k isError text => conduct.call access (.write k isError text)
    handleFault := fun k e => conduct.call access (.handleFault k e)
    trace := fun k e text => conduct.call access (.trace k e text)
    customHit := fun k action e => conduct.call access (.customHit k action e)
    resolveType := fun k name l => conduct.call access (.resolveType k name l)
    provideEvaluator := fun k extension => conduct.call access (.provideEvaluator k extension) }

/-- Calls may be nested in one another up to a depth, where the stack overflows. What no operation
calls is as in `rest`. -/
def host : Nat → Host (Journaled σ)
  | 0 => conduct.hostWith rest fun _ _ => throw ⟨some "stack overflow"⟩
  | n + 1 => conduct.hostWith rest fun s o => o.perform (host n) s

end Conduct

open Act

theorem Reaction.obeys {σ α : Type} {L : Law (Journaled σ)} {access : Access (Journaled σ)}
    {types : String → Act (Journaled σ) (Option String)} (hhost : ∀ f, Obeys L (modifyHost f))
    (haccess : ∀ s o, (∀ k, o ≠ .command k) → Obeys L (access s o))
    (htypes : ∀ name, Obeys L (types name)) (x : Reaction σ α) : Obeys L (x.play access types) := by
  induction x with
  | done x => exact Obeys.pure x
  | panic p => exact Obeys.throw p
  | consult next ih => exact Obeys.get (fun _ => rfl) fun w => ih w.host.1
  | remember f next ih => exact (hhost _).bind fun _ => ih
  | perform s o ho next ih => exact (haccess s o ho).bind fun x => ih x
  | ask name next ih => exact (htypes name).bind fun x => ih x

namespace Conduct

variable {σ : Type} {L : Law (Journaled σ)} (conduct : Conduct σ) (rest : Host (Journaled σ))

theorem hostWith_abides {access : Access (Journaled σ)} (hhost : ∀ f, Obeys L (modifyHost f))
    (haccess : ∀ s o, (∀ k, o ≠ .command k) → Obeys L (access s o)) :
    (conduct.hostWith rest access).Abides L :=
  rest.calling_abides fun x _ htypes =>
    (hhost _).bind fun _ => Reaction.obeys hhost haccess htypes (conduct x)

theorem abides (eventful : L.Eventful) (hhost : ∀ f, Obeys L (modifyHost f)) (n : Nat) :
    (conduct.host rest n).Abides L := by
  induction n with
  | zero => exact conduct.hostWith_abides rest hhost fun _ _ _ => Obeys.throw _
  | succ n ih => exact conduct.hostWith_abides rest hhost fun s o ho => ih.perform eventful s ho

/-- A script cannot tell what is hidden. -/
theorem unaware (n : Nat) : (conduct.host rest n).Unaware :=
  (conduct.abides rest (oblivious_eventful _) Oblivious.modifyHost n).unaware

end Conduct

end DebugSession
