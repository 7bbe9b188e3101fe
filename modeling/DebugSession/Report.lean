namespace DebugSession

inductive Report
  | absent
  | truth (b : Bool)
  | number (n : Int)
  | text (s : String)
  | list (items : List Report)
  | record (parts : List (String × Report))
  deriving Repr, Inhabited

class Reportable (α : Type) where
  report : α → Report

export Reportable (report)

variable {α : Type}

instance : Reportable Report := ⟨id⟩
instance : Reportable Bool := ⟨.truth⟩
instance : Reportable Nat := ⟨fun n => .number n⟩
instance : Reportable Int := ⟨.number⟩
instance : Reportable String := ⟨.text⟩
instance [Reportable α] : Reportable (Option α) := ⟨fun o => o.elim .absent report⟩
instance [Reportable α] : Reportable (List α) := ⟨fun as => .list (as.map report)⟩

def Report.chosen (names : List String) (truths : List Bool) : Report :=
  report ((names.zip truths).filterMap fun (name, holds) => if holds then some name else none)

end DebugSession
