import BlockFlow.Program.Json
import BlockFlow.Wire.Basic

/-! # Programs as bytes

  Variants are numbered in the order of their declaration, and a variant is
  its number followed by its parts. Nothing else marks where a part begins.

  The parsers for expressions and statements are given a bound on how deep
  they may nest. Every level takes at least one byte, so the number of bytes
  is bound enough, and `Program.ofBytes` never runs into it.
-/

namespace BlockFlow

open Wire

/-! ## Writing -/

/-- A scalar value as bytes. -/
def Value.toBytes : Value → Bytes
  | .null => varint 0
  | .integer n => varint 1 ++ varint (zigzag n.toInt)
  | .float x => varint 2 ++ littleEndian 8 x.bits.toNat
  | .string s => varint 3 ++ textBytes s
  | .bool b => varint 4 ++ flagBytes b

/-- An operator with two operands as bytes. -/
def BinaryOp.toBytes (op : BinaryOp) : Bytes := varint (BinaryOp.all.idxOf op)

/-- An operator with one operand as bytes. -/
def UnaryOp.toBytes (op : UnaryOp) : Bytes := varint (UnaryOp.all.idxOf op)

/-- A call mode as bytes. -/
def CallMode.toBytes (mode : CallMode) : Bytes := varint (CallMode.all.idxOf mode)

mutual

/-- An expression as bytes. -/
def Expr.toBytes : Expr → Bytes
  | .literal v => varint 0 ++ v.toBytes
  | .ident name => varint 1 ++ textBytes name
  | .binary op left right => varint 2 ++ op.toBytes ++ left.toBytes ++ right.toBytes
  | .unary op arg => varint 3 ++ op.toBytes ++ arg.toBytes
  | .call callee args mode =>
    varint 4 ++ callee.toBytes ++ varint args.length ++ Expr.listToBytes args ++ mode.toBytes
  | .member object property => varint 5 ++ object.toBytes ++ textBytes property
  | .closure params body isAsync =>
    varint 6 ++ varint params.length ++ params.flatMap textBytes ++
      varint body.length ++ Stmt.listToBytes body ++ flagBytes isAsync

/-- The items of a list of expressions as bytes. -/
def Expr.listToBytes : List Expr → Bytes
  | [] => []
  | e :: es => e.toBytes ++ Expr.listToBytes es

/-- A statement as bytes. -/
def Stmt.toBytes : Stmt → Bytes
  | .cond test body none =>
    varint 0 ++ test.toBytes ++ varint body.length ++ Stmt.listToBytes body ++ [0]
  | .cond test body (some orElse) =>
    varint 0 ++ test.toBytes ++ varint body.length ++ Stmt.listToBytes body ++
      1 :: varint orElse.length ++ Stmt.listToBytes orElse
  | .forLoop init test update body =>
    varint 1 ++ init.toBytes ++ test.toBytes ++ update.toBytes ++
      varint body.length ++ Stmt.listToBytes body
  | .whileLoop test body =>
    varint 2 ++ test.toBytes ++ varint body.length ++ Stmt.listToBytes body
  | .doWhile body test =>
    varint 3 ++ varint body.length ++ Stmt.listToBytes body ++ test.toBytes
  | .switch subject cases =>
    varint 4 ++ subject.toBytes ++ varint cases.length ++ Stmt.listToBytes cases
  | .case none body => varint 5 ++ 0 :: varint body.length ++ Stmt.listToBytes body
  | .case (some test) body =>
    varint 5 ++ 1 :: test.toBytes ++ varint body.length ++ Stmt.listToBytes body
  | .brk => varint 6
  | .bind name init => varint 7 ++ textBytes name ++ init.toBytes
  | .assign target value => varint 8 ++ target.toBytes ++ value.toBytes
  | .expr e => varint 9 ++ e.toBytes
  | .ret e => varint 10 ++ e.toBytes

/-- The items of a list of statements as bytes. -/
def Stmt.listToBytes : List Stmt → Bytes
  | [] => []
  | s :: ss => s.toBytes ++ Stmt.listToBytes ss

end

/-- A program as bytes. -/
def Program.toBytes (p : Program) : Bytes := varint p.body.length ++ Stmt.listToBytes p.body

/-! ## Reading -/

/-- Takes a scalar value. -/
def Value.take : Parser Value := do
  match ← takeIndex with
  | 0 => return .null
  | 1 =>
    let n ← takeInt
    return .integer n
  | 2 =>
    let bytes ← takeBytes 8
    return .float ⟨UInt64.ofNat (ofLittleEndian bytes)⟩
  | 3 =>
    let s ← takeText
    return .string s
  | 4 =>
    let b ← takeFlag
    return .bool b
  | _ => throw .badVariant

mutual

/-- Takes an expression that nests less than so many levels deep. -/
def Expr.take : Nat → Parser Expr
  | 0 => throw .endOfBytes
  | bound + 1 => do
    match ← takeIndex with
    | 0 =>
      let v ← Value.take
      return .literal v
    | 1 =>
      let name ← takeText
      return .ident name
    | 2 =>
      let op ← takeOneOf BinaryOp.all
      let left ← Expr.take bound
      let right ← Expr.take bound
      return .binary op left right
    | 3 =>
      let op ← takeOneOf UnaryOp.all
      let arg ← Expr.take bound
      return .unary op arg
    | 4 =>
      let callee ← Expr.take bound
      let args ← takeList (Expr.take bound)
      let mode ← takeOneOf CallMode.all
      return .call callee args mode
    | 5 =>
      let object ← Expr.take bound
      let property ← takeText
      return .member object property
    | 6 =>
      let params ← takeList takeText
      let body ← takeList (Stmt.take bound)
      let isAsync ← takeFlag
      return .closure params body isAsync
    | _ => throw .badVariant

/-- Takes a statement that nests less than so many levels deep. -/
def Stmt.take : Nat → Parser Stmt
  | 0 => throw .endOfBytes
  | bound + 1 => do
    match ← takeIndex with
    | 0 =>
      let test ← Expr.take bound
      let body ← takeList (Stmt.take bound)
      let orElse ← takeOption (takeList (Stmt.take bound))
      return .cond test body orElse
    | 1 =>
      let init ← Stmt.take bound
      let test ← Expr.take bound
      let update ← Stmt.take bound
      let body ← takeList (Stmt.take bound)
      return .forLoop init test update body
    | 2 =>
      let test ← Expr.take bound
      let body ← takeList (Stmt.take bound)
      return .whileLoop test body
    | 3 =>
      let body ← takeList (Stmt.take bound)
      let test ← Expr.take bound
      return .doWhile body test
    | 4 =>
      let subject ← Expr.take bound
      let cases ← takeList (Stmt.take bound)
      return .switch subject cases
    | 5 =>
      let test ← takeOption (Expr.take bound)
      let body ← takeList (Stmt.take bound)
      return .case test body
    | 6 => return .brk
    | 7 =>
      let name ← takeText
      let init ← Expr.take bound
      return .bind name init
    | 8 =>
      let target ← Expr.take bound
      let value ← Expr.take bound
      return .assign target value
    | 9 =>
      let e ← Expr.take bound
      return .expr e
    | 10 =>
      let e ← Expr.take bound
      return .ret e
    | _ => throw .badVariant

end

/-- The program at the front of bytes; what follows it is ignored. -/
def Program.ofBytes (bytes : Bytes) : Except WireError Program := do
  let (body, _) ← takeList (Stmt.take (bytes.length + 1)) bytes
  return ⟨body⟩

end BlockFlow
