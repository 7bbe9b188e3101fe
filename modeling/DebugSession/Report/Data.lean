import DebugSession.BindingTable
import DebugSession.Evaluator
import DebugSession.Report.Name

namespace DebugSession

def EvaluationOptions.parts (o : EvaluationOptions) : List (String × Report) :=
  [("methods", report o.allowMethods), ("to_string", report o.allowToString),
    ("chunk", report o.fetchChunk), ("child_timeout_ms", report o.childTimeout)]

instance : Reportable EvaluationOptions := ⟨fun o => .record o.parts⟩

instance : Reportable SessionOptions := ⟨fun o =>
  .record (o.evaluation.parts ++ [("step_over", report o.stepping.overProperties),
    ("project_only", report o.stepping.projectOnly)])⟩

instance : Reportable SessionConfig := ⟨fun c =>
  .record [("dispatch", report c.dispatch.name), ("workers", report c.workers),
    ("auto_retry", report c.autoRetry), ("read_only_ms", report c.readOnlyTimeout),
    ("evaluation", report c.evaluation)]⟩

instance : Reportable BusyState := ⟨fun b => .list [report b.isBusy, report b.description]⟩

instance : Reportable BreakEventId := ⟨fun id => report id.raw⟩
instance : Reportable BindingHandle := ⟨fun h => report h.raw⟩

instance : Reportable HitAction := ⟨fun a => .chosen HitAction.names [a.stop, a.print, a.custom]⟩

def BreakEventKind.ownPart : BreakEventKind → String × Report
  | breakpoint _ _ column => ("column", report column)
  | catchpoint _ includeSubclasses => ("include_subclasses", report includeSubclasses)

instance : Reportable BreakEvent := ⟨fun e =>
  .record [("id", report e.id), ("display", report e.text), ("file", report e.file),
    ("line", report e.line), ("exception", report e.exception), ("enabled", report e.enabled),
    ("condition", report e.condition), ("hit_action", report e.hitAction),
    ("trace", report e.trace), ("action", report e.customAction), e.kind.ownPart]⟩

instance : Reportable BindingRecord := ⟨fun r =>
  .record [("event", report r.breakEvent), ("handle", report r.handle),
    ("status", report r.status.name), ("status_message", report r.statusMessage),
    ("message", report r.message)]⟩

def BindingRecord.summary (r : BindingRecord) : Report :=
  .list [report r.id, report r.breakEvent.text, report r.handle, report r.status.name,
    report r.message]

instance : Reportable ValueFlags := ⟨fun f =>
  .chosen ValueFlags.names [f.readOnly, f.field, f.property, f.localVariable, f.parameter,
    f.literal, f.arrayElement]⟩

def floatDigits (x : Float) : String :=
  if x.isNaN then "nan"
  else String.ofList ((Nat.toDigits 16 (UInt64.size + x.toBits.toNat)).drop 1)

instance : Reportable Literal where
  report
    | .null => .record [("null", report true)]
    | .bool b => .record [("bool", report b)]
    | .int n => .record [("int", report n)]
    | .uint n => .record [("uint", report n)]
    | .float x => .record [("float", report (floatDigits x))]
    | .char c => .record [("char", report c.toString)]
    | .text s => .record [("text", report s)]
    | .pointer n => .record [("pointer", report n)]
    | .other s => .record [("other", report s)]

instance : Reportable Reference := ⟨fun r => .list [report r.name, report r.flags]⟩

instance : Reportable CompletionItem := ⟨fun i => .list [report i.name, report i.flags]⟩

instance : Reportable Completion := ⟨fun c =>
  .record [("length", report c.length), ("items", report c.items)]⟩

def Node.summary (n : Node) : Report :=
  .list [report n.name, report n.kind.name, report n.typeName, report n.value]

instance : Reportable Node := ⟨fun n =>
  .record [("kind", report n.kind.name), ("name", report n.name), ("path", report n.path.text),
    ("type", report n.typeName), ("value", report n.value), ("null", report n.isNull),
    ("array", report n.isArray), ("is_error", report n.isError),
    ("evaluating", report n.isEvaluating), ("editable", report n.isEditable),
    ("children", report n.hasChildren), ("cached", report n.cachedChildCount)]⟩

instance : Reportable AssemblyLine := ⟨fun l =>
  .list [report l.address, report l.code, report l.sourceLine]⟩

end DebugSession
