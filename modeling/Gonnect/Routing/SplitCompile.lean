import Gonnect.Routing.Interpreters

/-!
# The compiler of split-route programs

A split-route program is kept in two forms. The decoded form is for a stack interpreter. The
compiled form is a list of segments, each a condition and a target, in program order.
Conditions are nodes of an arena, built by running the program with nodes in place of truth
values, and simplified on the way. A plain conjunction or disjunction of tests is also stored
as a list of predicates. Programs with a terminal that leaves values on the stack are not
compiled.
-/

namespace Gonnect.Routing

open Checked StraightLine

inductive SplitJoin where
  | and
  | or
deriving DecidableEq, Repr

/-- `splitCond`: a node of the arena, with the fields that its kind uses. -/
inductive SplitCond where
  | const (value : Bool)
  | atom (op : Option Op) (param : ℕ)
  | not (child : ℕ)
  | join (kind : SplitJoin) (children : List ℕ)
deriving DecidableEq, Repr

inductive SplitFastCondKind where
  | none
  | all
  | any
deriving DecidableEq, Repr

/-- `splitPredicate`: a test, or the negation of one. -/
structure SplitPredicate where
  op : Option Op
  param : ℕ
  not : Bool
deriving DecidableEq, Repr

structure SplitRouteSegment where
  cond : ℕ
  slot : ℕ
  drop : Bool
  fastKind : SplitFastCondKind
  fastPreds : List SplitPredicate
deriving DecidableEq, Repr

def splitMaxDepth : List Instr → ℕ → ℕ → ℕ
  | [], _, maxDepth => maxDepth
  | instr :: rest, depth, maxDepth =>
    match instr.op with
    | some .drop | some .slot | some .and | some .or => splitMaxDepth rest (depth - 1) maxDepth
    | some .not => splitMaxDepth rest depth maxDepth
    | _ => splitMaxDepth rest (depth + 1) (max maxDepth (depth + 1))

def compileSplitBytecode (code : List UInt8) : Checked (List Instr × ℕ) := do
  let program ← decode code
  .ok (program, splitMaxDepth program 0 0)

abbrev SplitConds := List SplitCond

namespace SplitConds

def falseCond : ℕ := 0

def trueCond : ℕ := 1

def initial : SplitConds :=
  [.const false, .const true]

variable (conds : SplitConds)

def add (cond : SplitCond) : ℕ × SplitConds :=
  (conds.length, conds ++ [cond])

def constValue (idx : ℕ) : Checked (Option Bool) := do
  match ← index conds idx with
  | .const value => .ok (some value)
  | _ => .ok none

def not (child : ℕ) : Checked (ℕ × SplitConds) := do
  match ← conds.constValue child with
  | some true => .ok (falseCond, conds)
  | some false => .ok (trueCond, conds)
  | none =>
    match ← index conds child with
    | .not inner => .ok (inner, conds)
    | _ => .ok (conds.add (.not child))

def operands (kind : SplitJoin) (idx : ℕ) : Checked (List ℕ) := do
  match ← index conds idx with
  | .join inner children => .ok (if inner = kind then children else [idx])
  | _ => .ok [idx]

def join (kind : SplitJoin) (left right : ℕ) : Checked (ℕ × SplitConds) := do
  let leftOperands ← conds.operands kind left
  let rightOperands ← conds.operands kind right
  .ok (conds.add (.join kind (leftOperands ++ rightOperands)))

def and (left right : ℕ) : Checked (ℕ × SplitConds) := do
  match ← conds.constValue left with
  | some false => .ok (falseCond, conds)
  | some true => .ok (right, conds)
  | none =>
    match ← conds.constValue right with
    | some true => .ok (left, conds)
    | _ => conds.join .and left right

def or (left right : ℕ) : Checked (ℕ × SplitConds) := do
  match ← conds.constValue left with
  | some true => .ok (trueCond, conds)
  | some false => .ok (right, conds)
  | none =>
    match ← conds.constValue right with
    | some false => .ok (left, conds)
    | _ => conds.join .or left right

def childPredicates (conds : SplitConds) : List ℕ → Checked (Option (List SplitPredicate))
  | [] => .ok (some [])
  | child :: rest => do
      match ← index conds child with
      | .atom op param => do
          let preds ← conds.childPredicates rest
          .ok (preds.map (⟨op, param, false⟩ :: ·))
      | .not grandchild => do
          match ← index conds grandchild with
          | .atom op param => do
              let preds ← conds.childPredicates rest
              .ok (preds.map (⟨op, param, true⟩ :: ·))
          | _ => .ok none
      | .const value => do
          let preds ← conds.childPredicates rest
          .ok (preds.map (⟨some .pushTrue, 0, !value⟩ :: ·))
      | .join _ _ => .ok none

def fastPredicates (idx : ℕ) : Checked (SplitFastCondKind × List SplitPredicate) := do
  match ← index conds idx with
  | .const value => .ok (if value then .all else .none, [])
  | .atom op param => .ok (.all, [⟨op, param, false⟩])
  | .not child => do
      match ← index conds child with
      | .atom op param => .ok (.all, [⟨op, param, true⟩])
      | _ => .ok (.none, [])
  | .join kind children => do
      match ← conds.childPredicates children with
      | none => .ok (.none, [])
      | some preds =>
        match kind with
        | .and => .ok (.all, preds)
        | .or => .ok (.any, preds)

end SplitConds

/-- The terminal case of `compileSplitRoute`, for a condition that took the whole stack.
The flag says that no later segment can be reached. -/
def compileSegment (conds : SplitConds) (cond : ℕ) (drop : Bool) (param : ℕ) :
    Checked (List SplitRouteSegment × Bool) := do
  let const ← conds.constValue cond
  if const = some false then
    .ok ([], false)
  else do
    let slot := if drop then 0 else (bytecodeParamInt param routerSlots).getD 0
    let (fastKind, fastPreds) ← conds.fastPredicates cond
    .ok ([⟨cond, slot, drop, fastKind, fastPreds⟩], const.isSome)

open SplitConds

/-- The loop of `compileSplitRoute`; the top of the stack comes first, and there is no
result when the program cannot be compiled. -/
def compileLoop : List Instr → SplitConds → List ℕ → List SplitRouteSegment →
    Checked (Option (SplitConds × List SplitRouteSegment))
  | [], conds, stack, segments => .ok (if stack = [] then some (conds, segments) else none)
  | instr :: rest, conds, stack, segments =>
    match instr.op, stack with
    | some .drop, [cond] => do
        let (compiled, final) ← compileSegment conds cond true instr.param
        if final then .ok (some (conds, segments ++ compiled))
        else compileLoop rest conds [] (segments ++ compiled)
    | some .slot, [cond] => do
        let (compiled, final) ← compileSegment conds cond false instr.param
        if final then .ok (some (conds, segments ++ compiled))
        else compileLoop rest conds [] (segments ++ compiled)
    | some .drop, _ => .ok none
    | some .slot, _ => .ok none
    | some .pushTrue, stack => compileLoop rest conds (trueCond :: stack) segments
    | some .pushFalse, stack => compileLoop rest conds (falseCond :: stack) segments
    | some .fqdn, stack => compileLoop rest conds (falseCond :: stack) segments
    | some .lfqdn, stack => compileLoop rest conds (falseCond :: stack) segments
    | some .not, cond :: stack => do
        let (node, conds) ← conds.not cond
        compileLoop rest conds (node :: stack) segments
    | some .not, [] => .ok none
    | some .and, right :: left :: stack => do
        let (node, conds) ← conds.and left right
        compileLoop rest conds (node :: stack) segments
    | some .and, _ => .ok none
    | some .or, right :: left :: stack => do
        let (node, conds) ← conds.or left right
        compileLoop rest conds (node :: stack) segments
    | some .or, _ => .ok none
    | op, stack =>
      let (node, conds) := conds.add (.atom op instr.param)
      compileLoop rest conds (node :: stack) segments

def compileSplitRoute (code : List UInt8) :
    Checked (Option (SplitConds × List SplitRouteSegment)) := do
  let program ← decode code
  compileLoop program initial [] []

end Gonnect.Routing
