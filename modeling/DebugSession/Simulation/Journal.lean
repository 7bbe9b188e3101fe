import DebugSession.Report.Live
import DebugSession.Simulation.Host

namespace DebugSession.Simulation

open Act

def arguments : EngineRequest → List Report
  | .command (.run start options) =>
    [report start.command, report start.arguments, report start.directory,
      report (start.environment.map fun e => [e.1, e.2]), report options]
  | .command (.attach process options) => [report process, report options]
  | .setActiveThread process thread | .backtrace process thread => [report process, report thread]
  | .insert e => [report e.id, report e.text, report e.enabled, report e.condition]
  | .remove n => [report n.text]
  | .update n e => [report n.text, report e.text, report e.condition]
  | .enable n on => [report n.text, report on]
  | .threads process => [report process]
  | .disassembleFile file => [report file]
  | .command _ | .processes => []

def Call.arguments : Call → List Report
  | request q => Simulation.arguments q
  | resolve expression => [report expression]
  | cancel => []

instance : Reportable ChildRange where
  report
    | .all => report "all"
    | .range start count => report [start, count]

variable {ρ : Type} (h : Host (Memory × ρ))

def Happening.line : Happening → Program ρ (List Report)
  | call s c => return [report "call", report s.index, report c.name] ++ c.arguments
  | event s subscriber e => do
    let x ← session s
    let phase := if x.held then some x.lifecycle.phase.text else none
    return [report "event", report s.index, report subscriber, report e.topic.name, report phase,
      ← e.describe h]
  | change follower ⟨kind, e⟩ =>
    return [report "store", report follower, report kind.name, report e.id, report e.text,
      report e.enabled, report e.condition]
  | written s sink isError text =>
    return report sink.name :: (s.toList.map fun s => report s.index) ++
      [report isError, report text]
  | fault s e => return [report "exception", report s.index, .failure e]
  | traced s e text => return [report "trace", report s.index, report e.id, report text]
  | hit s action e => return [report "hit?", report s.index, report action, report e.id]
  | askedType name => return [report "type?", report name]
  | askedEvaluator extension => return [report "evaluator?", report extension]
  | askedChildren path range => return [report "children", report path.text, report range]
  | assigned path text => return [report "set_value", report path.text, report text]
  | stored name => return [report "set_value", report name]
  | awaitedInvocations => return [report "wait_runtime_invokes"]

def Happening.moment? : Happening → Option String
  | call s c => some s!"{s.index}:{c.name}"
  | event s _ e => some s!"{s.index}:on {e.topic.name}"
  | change follower a => some s!"{follower}:{a.change.name}"
  | _ => none

end DebugSession.Simulation
