namespace DebugSession

structure TargetValue where
  handle : Nat
  deriving DecidableEq, Repr, Inhabited

structure TargetType where
  handle : Nat
  deriving DecidableEq, Repr, Inhabited

structure Slot where
  handle : Nat
  deriving DecidableEq, Repr, Inhabited

end DebugSession
