import DebugSession.Proofs.Run
import DebugSession.Session.Reporter
import DebugSession.Store.Edit

namespace DebugSession

inductive Operation
  | command (c : Command)
  | targetEvent (e : TargetEvent)
  | started (thread : Option ThreadInfo)
  | write (sink : Sink) (isError : Bool) (text : String)
  | fileLoaded (file : String)
  | fileUnloaded (file : String)
  | busy (state : BusyState)
  | setStatus (handle : BindingHandle) (status : BindingStatus) (message : Option String)
  | recordFor (handle : BindingHandle)
  | trace (handle : BindingHandle) (text : String)
  | customHit (action : String) (handle : BindingHandle)
  | adjust (id : BreakEventId) (line : Nat)
  | attach (store : Option StoreId)
  | breakpoints
  | edit (store : StoreId) (e : Edit)
  | adjustLine (store : StoreId) (id : BreakEventId) (line : Nat)
  | resetAdjusted (store : StoreId)
  | announceStatus (store : StoreId) (id : BreakEventId)
  | isReadOnly (store : StoreId)
  | phase
  | status (id : BreakEventId)
  | message (id : BreakEventId)
  | activeThread
  | setActiveThread (thread : ThreadInfo)
  | options
  | processes
  | threads (process : Nat)
  | backtrace (process thread : Nat)
  | disassembleFile (file : String)
  | resolveExpression (expression : String) (location : SourceLocation)
  | evaluatorFor (extension : Option String)

namespace Operation

@[reducible] def Answer : Operation → Type
  | command _ | setActiveThread _ => Except SessionError Unit
  | recordFor _ => Option BindingRecord
  | customHit _ _ | isReadOnly _ => Bool
  | adjust _ _ | adjustLine _ _ _ => Except StoreError Unit
  | breakpoints => StoreId
  | edit _ _ => Except StoreError (List Announcement)
  | phase => Phase
  | status _ => BindingStatus
  | message _ | resolveExpression _ _ => String
  | activeThread => Option ThreadInfo
  | options => SessionOptions
  | processes => Except SessionError (List ProcessInfo)
  | threads _ => Except SessionError (List ThreadInfo)
  | backtrace _ _ => Except SessionError (Option Backtrace)
  | disassembleFile _ => Except SessionError (Option (List AssemblyLine))
  | evaluatorFor _ => EvaluatorId
  | _ => Unit

variable {σ : Type} (h : Host σ) (s : SessionId)

def perform : (o : Operation) → Act σ o.Answer
  | .command c => s.command h c
  | .targetEvent e => s.reporter.targetEvent h e
  | .started t => s.reporter.started h t
  | .write sink isError text => s.reporter.write h sink isError text
  | .fileLoaded file => s.reporter.fileLoaded h file
  | .fileUnloaded file => s.reporter.fileUnloaded h file
  | .busy state => s.reporter.busy h state
  | .setStatus n b m => s.reporter.setStatus h n b m
  | .recordFor handle => s.reporter.recordFor handle
  | .trace handle text => s.reporter.trace h handle text
  | .customHit action handle => s.reporter.customHit h action handle
  | .adjust id line => s.reporter.adjust h id line
  | .attach st => s.setStore h st
  | .breakpoints => s.breakpoints h
  | .edit st e => st.edit h e
  | .adjustLine st id line => st.adjust h id line
  | .resetAdjusted st => st.resetAdjusted h
  | .announceStatus st id => st.announceStatus h id
  | .isReadOnly st => st.isReadOnly h
  | .phase => s.phase
  | .status id => s.breakEventStatus id
  | .message id => s.breakEventMessage id
  | .activeThread => do return (← Act.session s).activeThread
  | .setActiveThread t => s.setActiveThread h t
  | .options => do return (← Act.session s).options
  | .processes => s.processes h
  | .threads process => s.threads h process
  | .backtrace process thread => s.backtrace h process thread
  | .disassembleFile file => s.disassembleFile h file
  | .resolveExpression expression l => s.resolveExpression h expression l
  | .evaluatorFor extension => s.evaluatorFor h extension

end Operation

/-- Users choose the options of a session, and whom it consults and tells. Nothing else changes. -/
def Session.Choice (m : Session → Session) : Prop :=
  ∀ x, m x = { x with
    options := (m x).options, observers := (m x).observers, handlers := (m x).handlers,
    expressions := (m x).expressions, evaluators := (m x).evaluators }

theorem Session.Choice.keeps {α : Type} {m : Session → Session} (hm : Session.Choice m)
    {f : Session → α} (hf : ∀ x options observers handlers expressions evaluators,
      f { x with
        options := options, observers := observers, handlers := handlers,
        expressions := expressions, evaluators := evaluators } = f x) (x : Session) :
    f (m x) = f x :=
  (congrArg f (hm x)).trans (hf x _ _ _ _ _)

/-- What may happen to a session next. A worker turns to the commands that are queued at a time of
its own, and users make their choices in between. -/
inductive Turn
  | perform (thread : Thread) (o : Operation)
  | work
  | choose (m : Session → Session) (hm : Session.Choice m)

namespace Turn

variable {σ : Type} (h : Host σ) (s : SessionId)

def after (w : World σ) : Turn → World σ
  | perform t o => (Act.run (o.perform h s) ⟨t, [], []⟩ w).2
  | work => (Act.run (s.workNext h) ⟨.worker s, [], []⟩ w).2
  | choose m _ => w.withSession s m

def starts : Turn → Bool
  | perform _ (.started _) => true
  | _ => false

def afterAll (w : World σ) (ts : List Turn) : World σ := ts.foldl (after h s) w

theorem eq_of_starts {turn : Turn} (hturn : turn.starts = true) :
    ∃ t thread, turn = perform t (.started thread) := by
  cases turn with
  | work | choose m hm => cases hturn
  | perform t o =>
      cases o with
      | started thread => exact ⟨t, thread, rfl⟩
      | _ => cases hturn

end Turn

section Runs

variable {α β : Type} (step : α → β → α)

/-- What holds from the first state of a run to its last. -/
def Throughout (P : α → Prop) : α → List β → Prop
  | x, [] => P x
  | x, b :: bs => P x ∧ Throughout P (step x b) bs

/-- What no step of a run does. -/
def Nowhere (Q : α → β → Prop) : α → List β → Prop
  | _, [] => True
  | x, b :: bs => ¬ Q x b ∧ Nowhere Q (step x b) bs

variable {step} {I C P : α → Prop} {Q : α → β → Prop}

theorem Throughout.last {x : α} {bs : List β} (hrun : Throughout step P x bs) :
    P (bs.foldl step x) := by
  induction bs generalizing x with
  | nil => exact hrun
  | cons b rest ih => exact ih hrun.2

theorem of_foldl (hC : ∀ x b, I x → C (step x b) → C x) (hI : ∀ x b, I x → I (step x b)) {x : α}
    {bs : List β} (hx : I x) (hlast : C (bs.foldl step x)) : C x := by
  induction bs generalizing x with
  | nil => exact hlast
  | cons b rest ih => exact hC x b hx (ih (hI x b hx) hlast)

theorem throughout_of_step (hI : ∀ x b, I x → I (step x b)) (hP : ∀ x, I x → P x) {x : α}
    {bs : List β} (hx : I x) : Throughout step P x bs := by
  induction bs generalizing x with
  | nil => exact hP x hx
  | cons b rest ih => exact ⟨hP x hx, ih (hI x b hx)⟩

theorem nowhere_of_step (hI : ∀ x b, I x → I (step x b)) (hQ : ∀ x b, I x → ¬Q x b) {x : α}
    {bs : List β} (hx : I x) : Nowhere step Q x bs := by
  induction bs generalizing x with
  | nil => trivial
  | cons b rest ih => exact ⟨hQ x b hx, ih (hI x b hx)⟩

/-- If it is just the steps with `Q` that lose `P`, a run keeps `P` as long as it has none of them.
`C` is what is only known of the end of the run and holds all the more before it. -/
theorem throughout_iff_nowhere (hI : ∀ x b, I x → I (step x b))
    (hC : ∀ x b, I x → C (step x b) → C x)
    (hstep : ∀ x b, I x → C (step x b) → P x → (P (step x b) ↔ ¬ Q x b)) {x : α} {bs : List β}
    (hx : I x) (hlast : C (bs.foldl step x)) (hP : P x) :
    Throughout step P x bs ↔ Nowhere step Q x bs := by
  induction bs generalizing x with
  | nil => exact iff_of_true hP trivial
  | cons b rest ih =>
      have hx' := hI x b hx
      have hstep' := hstep x b hx (of_foldl hC hI hx' hlast) hP
      constructor
      · rintro ⟨-, hrest⟩
        have hP' : P (step x b) := by
          cases rest with
          | nil => exact hrest
          | cons b' rest => exact hrest.1
        exact ⟨hstep'.mp hP', (ih hx' hlast hP').mp hrest⟩
      · rintro ⟨hnot, hrest⟩
        have hP' := hstep'.mpr hnot
        exact ⟨hP, (ih hx' hlast hP').mpr hrest⟩

end Runs

end DebugSession
