import DebugSession.Proofs.Sound
import DebugSession.Simulation.Host

namespace DebugSession.Scripted

open Act

abbrev State := Simulation.Memory × List Exchange

def self : SessionId := ⟨0⟩

def ledger : Ledger State := ⟨self, (·.2)⟩

variable (script : List Exchange → Mood)

def answer (s : SessionId) (q : EngineRequest) : Act State (Except EngineError q.Answer) := do
  let past := (← host).2
  modifyHost fun x => (x.1, x.2 ++ if s = self then [⟨q, script past q⟩] else [])
  return script past q

def engine (s : SessionId) : Engine (Act State) :=
  { Engine.answering (fun q => ExceptT.mk (answer script s q)) with
    resolveExpression := fun _ _ _ => return none }

/-- What the engine says depends on what the session asked it before. Nobody calls back. -/
def host : Host State :=
  { Simulation.host default with
    engine := engine script
    observe := fun _ _ _ => return
    storeChanged := fun _ _ _ => return
    vetoes := fun _ _ => return false
    write := fun _ _ _ => return
    handleFault := fun _ _ => return false
    trace := fun _ _ _ => return
    customHit := fun _ _ _ => return false
    resolveType := fun _ _ _ => return none
    provideEvaluator := fun _ _ => return none }

/-- Does all that it is asked for, with a new handle for each binding, but for what it refuses. -/
def complying (refuses : List Exchange → Bool) (past : List Exchange) : Mood := fun q =>
  if refuses past then .error .notRunning
  else
    match q with
    | .insert _ => .ok { handle := ⟨past.length⟩ }
    | .threads _ | .processes => .ok []
    | .backtrace _ _ | .disassembleFile _ => .ok none
    | .command _ | .setActiveThread _ _ | .remove _ | .update _ _ | .enable _ _ => .ok ()

def reluctant : List Exchange → Mood := complying List.isEmpty

def willing : List Exchange → Mood := complying fun _ => false

def opened (config : SessionConfig) : World State :=
  { host := (default, [])
    sessions := #[Session.new config ⟨0⟩]
    routers := #[{}] }

theorem quiet : ledger.Quiet (host script) where
  answer := fun _ q _ w => ⟨script w.host.2 q, _, rfl, rfl, rfl, rfl, rfl⟩
  allowsChanges := fun _ => ledger.silent_pure true
  resolveExpression := fun _ _ _ _ _ => ledger.silent_pure (Except.ok none)
  observe := fun _ _ _ => ledger.silent_pure ()
  storeChanged := fun _ _ _ => ledger.silent_pure ()
  vetoes := fun _ _ => ledger.silent_pure false
  write := fun _ _ _ => ledger.silent_pure ()
  handleFault := fun _ _ => ledger.silent_pure false
  trace := fun _ _ _ => ledger.silent_pure ()
  customHit := fun _ _ _ => ledger.silent_pure false
  resolveType := fun _ _ _ => ledger.silent_pure none
  provideEvaluator := fun _ _ => ledger.silent_pure none

theorem opened_self (config : SessionConfig) : (opened config).Opened self config :=
  ⟨⟨⟨0⟩, rfl⟩, fun _ _ hl => (by cases hl), fun _ => List.nodup_nil⟩

def breakpoint (number line : Nat) : BreakEvent := .breakpoint ⟨number⟩ "/src/foo.cs" line

def calls (os : List Operation) : List Turn := os.map (.perform (.caller 0))

end DebugSession.Scripted
