import ExactQuadrature.Reading

/-! # Scripts of journal steps

A script drives a journal step by step: tasks that begin and end on their own or around further
steps, events, plain lines, expressions to read, and interruptions, which an attempt around them
absorbs. -/

namespace ExactQuadrature

/-- One step of a script. -/
inductive JournalStep where
  | beginTask (name : String) (details : List (String × String))
  | endTask
  | event (description : String)
  | log (line : String)
  | verbose (value : Bool)
  | read (text : Option String)
  | interrupt
  | within (name : String) (details : List (String × String)) (steps : List JournalStep)
  | attempt (steps : List JournalStep)
deriving Inhabited

namespace JournalStep

/-- Go on after an interruption, but after no other fault. -/
def absorbInterruption : Except Fault Unit → Except Fault Unit
  | .error .interrupted => .ok ()
  | outcome => outcome

mutual

/-- Do one step. -/
def run : JournalStep → Work Unit
  | beginTask name details => Work.beginTask name details
  | endTask => Work.endTask
  | event description => Work.event description
  | log line => Work.record (·.log line)
  | verbose value => Work.record ({ · with verbose := value })
  | read text => discard (PolynomialFormat.expression.readLine text)
  | interrupt => throw .interrupted
  | within name details steps => Work.within name details (runAll steps)
  | attempt steps => do
    let outcome ← Work.attempt (runAll steps)
    Work.ofExcept (absorbInterruption outcome)

/-- Do steps in order, up to the first fault. -/
def runAll : List JournalStep → Work Unit
  | [] => return ()
  | step :: rest => do
    run step
    runAll rest

end

end JournalStep

end ExactQuadrature
