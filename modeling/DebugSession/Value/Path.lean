namespace DebugSession

structure ValuePath where
  segments : List String := []
  deriving DecidableEq, Repr, Inhabited

namespace ValuePath

def root (name : String) : ValuePath := ⟨[name]⟩

def append (p : ValuePath) (name : String) : ValuePath := ⟨p.segments ++ [name]⟩

def last (p : ValuePath) : String := p.segments.getLast?.getD ""

def length (p : ValuePath) : Nat := p.segments.length

def isEmpty (p : ValuePath) : Bool := p.segments.isEmpty

def text (p : ValuePath) : String := "/".intercalate p.segments

end ValuePath

end DebugSession
