import DebugSession.Proofs.Law

namespace DebugSession

/-- Whatever the host is called for, it cannot tell what is hidden of sessions. -/
structure Host.Unaware {σ : Type} (h : Host σ) : Prop where
  answer : ∀ t q, ((h.engine t).answer q).run.Oblivious
  allowsChanges : ∀ t, (h.engine t).allowsChanges.Oblivious
  resolveExpression : ∀ t expression location ask, (∀ name, (ask name).Oblivious) →
    ((h.engine t).resolveExpression expression location ask).run.Oblivious
  observe : ∀ t k e, (h.observe t k e).Oblivious
  storeChanged : ∀ k st a, (h.storeChanged k st a).Oblivious
  vetoes : ∀ k st, (h.vetoes k st).Oblivious
  write : ∀ k isError text, (h.write k isError text).Oblivious
  handleFault : ∀ k e, (h.handleFault k e).Oblivious
  trace : ∀ k e text, (h.trace k e text).Oblivious
  customHit : ∀ k action e, (h.customHit k action e).Oblivious
  resolveType : ∀ k name l, (h.resolveType k name l).Oblivious
  provideEvaluator : ∀ k extension, (h.provideEvaluator k extension).Oblivious

def Act.oblivious (σ : Type) : Act.Law σ where
  Holds := Oblivious
  pure := Oblivious.pure
  throw := Oblivious.throw
  bind := Oblivious.bind
  locked := fun s _ ha => Oblivious.locked s ha
  keeping := fun s _ ha => Oblivious.keeping s ha
  editing := fun _ _ ha => Oblivious.editing ha
  isLive := Oblivious.isLive
  lockedElsewhere := Oblivious.lockedElsewhere
  isAdjusting := Oblivious.isAdjusting
  get := Oblivious.get
  modifySession := fun _ _ hm => Oblivious.modifySession hm.bare hm.hidden
  setStore := Oblivious.setStore
  newStore := Oblivious.newStore

theorem Act.oblivious_eventful (σ : Type) : (Act.oblivious σ).Eventful :=
  ⟨Oblivious.transition, fun _ _ => Oblivious.modifySession (fun _ => rfl) fun _ => rfl⟩

theorem Host.Abides.unaware {σ : Type} {h : Host σ} (abides : h.Abides (Act.oblivious σ)) :
    h.Unaware :=
  ⟨abides.answer, abides.allowsChanges, abides.resolveExpression, abides.observe,
    abides.storeChanged, abides.vetoes, abides.write, abides.handleFault, abides.trace,
    abides.customHit, abides.resolveType, abides.provideEvaluator⟩

namespace Host.Unaware

open Act

variable {σ : Type} {h : Host σ}

variable (unaware : h.Unaware)

include unaware

theorem abides : h.Abides (oblivious σ) :=
  ⟨unaware.answer, unaware.allowsChanges, unaware.resolveExpression, unaware.observe,
    unaware.storeChanged, unaware.vetoes, unaware.write, unaware.handleFault, unaware.trace,
    unaware.customHit, unaware.resolveType, unaware.provideEvaluator⟩

theorem execute (s : SessionId) (k : Command) : (s.execute h k).Oblivious :=
  unaware.abides.execute (oblivious_eventful σ) s k

/-- Whatever is hidden of a session, what it can be asked comes to the same, but for commands. -/
theorem perform (s : SessionId) {o : Operation} (ho : ∀ k, o ≠ .command k) :
    (o.perform h s).Oblivious := unaware.abides.perform (oblivious_eventful σ) s ho

end Host.Unaware

end DebugSession
