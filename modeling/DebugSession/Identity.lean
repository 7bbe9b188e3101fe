namespace DebugSession

structure SessionId where
  index : Nat
  deriving DecidableEq, Repr, Inhabited

structure StoreId where
  index : Nat
  deriving DecidableEq, Repr, Inhabited

structure NodeId where
  index : Nat
  deriving DecidableEq, Repr, Inhabited

structure RouterId where
  index : Nat
  deriving DecidableEq, Repr, Inhabited

structure PendingId where
  index : Nat
  deriving DecidableEq, Repr, Inhabited

structure CallbackId where
  raw : Nat
  deriving DecidableEq, Repr, Inhabited

structure BacktraceId where
  raw : Nat
  deriving DecidableEq, Repr, Inhabited

structure SourceId where
  raw : Nat
  deriving DecidableEq, Repr, Inhabited

inductive EvaluatorId
  | nameResolving
  | provided (raw : Nat)
  deriving DecidableEq, Repr, Inhabited

inductive Thread
  | caller (number : Nat)
  | worker (session : SessionId)
  | canceller (session : SessionId)
  deriving DecidableEq, Repr, Inhabited

end DebugSession
