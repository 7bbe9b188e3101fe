namespace DebugSession

inductive Sink
  | target
  | log
  deriving DecidableEq, Repr

structure OutputRouter (κ : Type) where
  target : Option κ := none
  log : Option κ := none
  deriving Repr, Inhabited

namespace OutputRouter

variable {κ : Type}

def writer (r : OutputRouter κ) : Sink → Option κ
  | .target => r.target
  | .log => r.log

def setWriter (r : OutputRouter κ) (sink : Sink) (w : Option κ) : OutputRouter κ :=
  match sink with
  | .target => { r with target := w }
  | .log => { r with log := w }

variable {m : Type → Type} [Monad m]

def write (r : OutputRouter κ) (put : κ → Bool → String → m Unit) (sink : Sink) (isError : Bool)
    (text : String) : m Unit :=
  match r.writer sink with
  | some w => put w isError text
  | none => pure ()

end OutputRouter

end DebugSession
