namespace DebugSession.Toml

inductive Scalar
  | text (value : String)
  | integer (value : Int)
  | bool (value : Bool)
  | float (overflows : Bool)
  | dateTime
  deriving DecidableEq, Repr

def Scalar.isReadable : Scalar → Bool
  | .integer n => -Nat.pow 2 127 ≤ n && n < Nat.pow 2 128
  | .float overflows => !overflows
  | _ => true

/-- How a table came to be. Only a header defines a table for good; the other two may still be
extended, and a table on the way to a header may get a header of its own. -/
inductive Origin
  | header
  | passedByHeader
  | dottedKey
  deriving DecidableEq, Repr

/-- Inline tables and arrays are values and stay as written. An array of tables keeps its last
table apart, as the only one that later lines extend. -/
inductive Node
  | scalar (value : Scalar)
  | array (items : List Node)
  | inlineTable (entries : List (String × Node))
  | table (origin : Origin) (entries : List (String × Node))
  | tables (earlier : List (List (String × Node))) (last : List (String × Node))

abbrev Entries := List (String × Node)

def Entries.set (es : Entries) (k : String) (v : Node) : Entries :=
  es.map fun e => if e.1 == k then (k, v) else e

def Entries.within (f : Entries → Option Entries) : List String → Entries → Option Entries
  | [], es => f es
  | k :: ks, es =>
    match es.lookup k with
    | some (.table origin sub) =>
      (Entries.within f ks sub).map fun sub => Entries.set es k (.table origin sub)
    | some (.tables earlier last) =>
      (Entries.within f ks last).map fun last => Entries.set es k (.tables earlier last)
    | _ => none

/-- A dotted key passes through tables that no header has defined, and through the last of an array
of tables. The table that its last part enters must be of the first kind, and cannot get a header
any more. -/
def Entries.insert (v : Node) : List String → Entries → Option Entries
  | [], _ => none
  | [k], es => if (es.lookup k).isSome then none else some (es ++ [(k, v)])
  | k :: ks, es =>
    match es.lookup k with
    | none => (Entries.insert v ks []).map fun sub => es ++ [(k, .table .dottedKey sub)]
    | some (.table .header _) => none
    | some (.table origin sub) =>
      let origin := if ks.length == 1 then .dottedKey else origin
      (Entries.insert v ks sub).map fun sub => Entries.set es k (.table origin sub)
    | some (.tables earlier last) =>
      if ks.length == 1 then none
      else (Entries.insert v ks last).map fun last => Entries.set es k (.tables earlier last)
    | _ => none

def Entries.descend (f : String → Entries → Option Entries) :
    List String → Entries → Option Entries
  | [], _ => none
  | [k], es => f k es
  | k :: ks, es =>
    match es.lookup k with
    | none => (Entries.descend f ks []).map fun sub => es ++ [(k, .table .passedByHeader sub)]
    | some (.table origin sub) =>
      (Entries.descend f ks sub).map fun sub => Entries.set es k (.table origin sub)
    | some (.tables earlier last) =>
      (Entries.descend f ks last).map fun last => Entries.set es k (.tables earlier last)
    | _ => none

def openTable (k : String) (es : Entries) : Option Entries :=
  match es.lookup k with
  | none => some (es ++ [(k, .table .header [])])
  | some (.table .passedByHeader sub) => some (Entries.set es k (.table .header sub))
  | _ => none

def openElement (k : String) (es : Entries) : Option Entries :=
  match es.lookup k with
  | none => some (es ++ [(k, .tables [] [])])
  | some (.tables earlier last) => some (Entries.set es k (.tables (earlier ++ [last]) []))
  | _ => none

def Node.entries? : Node → Option Entries
  | .table _ es => some es
  | .inlineTable es => some es
  | _ => none

mutual

def Node.isReadable : Node → Bool
  | .scalar s => s.isReadable
  | .array items => areReadable items
  | .inlineTable es => entriesReadable es
  | .table _ es => entriesReadable es
  | .tables earlier last => tablesReadable earlier && entriesReadable last

def areReadable : List Node → Bool
  | [] => true
  | v :: vs => v.isReadable && areReadable vs

def entriesReadable : List (String × Node) → Bool
  | [] => true
  | (_, v) :: es => v.isReadable && entriesReadable es

def tablesReadable : List (List (String × Node)) → Bool
  | [] => true
  | t :: ts => entriesReadable t && tablesReadable ts

end

def Node.scalar? : Node → Option Scalar
  | .scalar s => some s
  | _ => none

end DebugSession.Toml
