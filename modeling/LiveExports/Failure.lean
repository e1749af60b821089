import LiveExports.Fault
import LiveExports.Files.FileSystem

/-!
# Failures

A failure is a cause together with what was being done when it arose, outermost first.
-/

namespace LiveExports

/-- What a failure comes from in the end. -/
inductive Cause where
  | fault (fault : Fault)
  | system (error : SystemError)
  | text (message : String)

namespace Cause

/-- The messages of a cause; a fault of reading or writing is followed by its reason. -/
def messages : Cause → List String
  | .fault (.io path reason) => [(Fault.io path reason).message, reason]
  | .fault problem => [problem.message]
  | .system error => [error.message]
  | .text message => [message]

end Cause

structure Failure where
  context : List String := []
  cause : Cause

namespace Failure

def ofFault (fault : Fault) : Failure :=
  { cause := .fault fault }

/-- An operation refused by the file system, and what it was for. -/
def ofSystem (context : String) (error : SystemError) : Failure :=
  { context := [context], cause := .system error }

/-- The failure seen from further out. -/
def during (failure : Failure) (context : String) : Failure :=
  { failure with context := context :: failure.context }

/-- All messages, outermost first. -/
def chain (failure : Failure) : List String :=
  failure.context ++ failure.cause.messages

/-- The outermost message. -/
def message (failure : Failure) : String :=
  failure.chain.headD ""

def fault? (failure : Failure) : Option Fault :=
  match failure.cause with
  | .fault fault => some fault
  | _ => none

/-- The failure on one line. -/
def inline (failure : Failure) : String :=
  ": ".intercalate failure.chain

/-- A text whose first line comes after `mark` and whose further lines are set in as far. -/
def hanging (mark text : String) : String :=
  let lines := (Text.split '\n' text.toList).map String.ofList
  mark ++ ("\n" ++ String.ofList (List.replicate mark.length ' ')).intercalate lines

/-- The number of a cause, right-aligned in five columns, as a mark. -/
def numberMark (index : Nat) : String :=
  let digits := Nat.toDigits 10 index
  String.ofList (List.replicate (5 - digits.length) ' ' ++ digits) ++ ": "

/-- The outermost message, and the others below it as causes.  The causes are set in, and numbered
if there are several. -/
def report (failure : Failure) : String :=
  match failure.chain with
  | [] => ""
  | [message] => message
  | [message, cause] => message ++ "\n\nCaused by:\n" ++ hanging "    " cause
  | message :: causes =>
    let numbered := causes.zipIdx.map fun (cause, index) => hanging (numberMark index) cause
    message ++ "\n\nCaused by:\n" ++ "\n".intercalate numbered

end Failure

end LiveExports
