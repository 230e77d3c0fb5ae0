import FlowLog.Filter.Condition
import FlowLog.Filter.Outline
import FlowLog.Filter.Registry
import FlowLog.Schema

/-!
# Reading filters

A filter text is outlined, and each clause of the outline is read by the class of its field. The
first clause at fault, from left to right, decides the error. A blank text is no filter.
-/

namespace FlowLog

namespace Outline

mutual

/-- The expression of an outline whose clauses mean what `read` says. -/
def toExpr (read : List Char → Except Filter.Error Expr) : Outline → Except Filter.Error Expr
  | .clause text => read text
  | .emptyGroup text => .error (.emptyGroup (String.ofList text))
  | .node connective parts => do
      let children ← toExprs read parts
      return .node connective children

/-- The expressions of some outlines, up to the first fault. -/
def toExprs (read : List Char → Except Filter.Error Expr) :
    List Outline → Except Filter.Error (List Expr)
  | [] => .ok []
  | part :: rest => do
      let child ← toExpr read part
      let children ← toExprs read rest
      return child :: children

end

end Outline

namespace Filter

/-- What a clause is read against: the classes of fields, and the computations that some fields
stand for. -/
structure Vocabulary where
  registry : Registry := .flowRecords
  computed : String → Option String := fun _ => none

/-- The vocabulary in which the computed fields of a schema are expanded. -/
def Vocabulary.ofSchema (schema : Schema) (registry : Registry) : Vocabulary where
  registry := registry
  computed := schema.computed

/-- The meaning of a located clause. `text` is the clause as written. -/
def readParts (vocabulary : Vocabulary) (text : List Char) (clause : Clause) : Except Error Expr :=
  let registered := vocabulary.registry.get? clause.field
  let computed := vocabulary.computed clause.field
  match registered, computed with
  | none, some computation =>
      .ok (.leaf ((comparison computation clause.operator clause.value).withSource clause.field))
  | _, _ => do
      let fieldClass := vocabulary.registry.resolve clause.field
      if clause.operator ∉ fieldClass.operators then
        throw (.unsupportedOperator fieldClass clause.field clause.operator (String.ofList text))
      fieldClass.checkValue clause.value
      match computed with
      | some computation =>
          let condition ← fieldClass.condition computation clause.operator clause.value
          return condition.withSource clause.field
      | none => fieldClass.condition clause.field clause.operator clause.value

/-- The meaning of a clause. -/
def readClause (vocabulary : Vocabulary) (text : List Char) : Except Error Expr :=
  match Clause.ofText? text with
  | none => .error (.noOperator (String.ofList text))
  | some clause =>
      if clause.field = "" then .error (.noField (String.ofList text))
      else readParts vocabulary text clause

/-- The expression of a text that is not blank. -/
def readExpr (vocabulary : Vocabulary) (text : List Char) : Except Error Expr :=
  (Outline.ofText text).toExpr (readClause vocabulary)

/-- The expression of a filter text, or nothing for a blank text. -/
def parse (vocabulary : Vocabulary) (text : String) : Except Error (Option Expr) :=
  if Text.blank text.toList then .ok none
  else (readExpr vocabulary (Text.trim text.toList)).map some

end Filter

end FlowLog
