/-
# Running scripts

The steps of a script are taken in order, each with the turns that it carries for
its waits. When a step halts, the script ends there: the outermost step answers,
with the turns that were completed during it and the calls that no answer
reported.
-/

import Conduit.Script.Perform

namespace Conduit.Script

/-- The calls that handlers answered since the last report; they are reported once. -/
def takeJournal : Play (List Invocation) := do
  let cast := (← get).others
  Play.modifyCast fun cast => { cast with journal := [] }
  return cast.journal

/-- Takes one step and answers it. The answers that its turns give are kept apart
from those of the step around it. -/
def answerStep (action : Action) (turns : List (Turn Cast)) : Play Answer := fun scene =>
  let outer := scene.others.yielded
  let restore : Scene Cast → Scene Cast := fun scene =>
    { scene with others := { scene.others with yielded := outer } }
  let fresh : Scene Cast := { scene with others := { scene.others with yielded := [] } }
  match Play.perform turns action fresh with
  | .error (.halted h) scene => .error (.halted h) scene
  | .error (.refused r) scene => report restore (.refused r) none none scene
  | .ok p scene =>
      let outcome := match p.result with
        | .ok reply => Outcome.replied reply
        | .error r => Outcome.refused r
      report restore outcome p.buffer p.status scene
where
  /-- Makes the answer from what the step left behind. -/
  report (restore : Scene Cast → Scene Cast) (outcome : Outcome) (buffer : Option (List UInt8))
      (status : Option Status) : Play Answer := fun scene =>
    match takeJournal scene with
    | .ok handled scene =>
        .ok (.mk outcome buffer status handled scene.others.yielded) (restore scene)
    | .error b scene => .error b scene

/-- The turn in which the others do something that gives answers. A turn that halts
leaves the answers of the completed turns in place. -/
def turnOf (part : Play (List Answer)) : Turn Cast := fun scene =>
  let outer := scene.others.yielded
  match part scene with
  | .ok answers scene =>
      let others := { scene.others with yielded := outer ++ [answers] }
      .ok () { scene with others }
  | .error (.halted h) scene =>
      .error h { scene with others := { scene.others with yielded := outer } }
  | .error (.refused _) scene => .ok () scene

mutual

/-- Takes one step. -/
def takeStep : Step → Play Answer
  | .mk action turns => answerStep action (toTurns turns)

/-- Takes steps in order. -/
def takeSteps : List Step → Play (List Answer)
  | [] => return []
  | step :: rest => do
      let answer ← takeStep step
      return answer :: (← takeSteps rest)

/-- The turns that lists of steps are. -/
def toTurns : List (List Step) → List (Turn Cast)
  | [] => []
  | steps :: rest => turnOf (takeSteps steps) :: toTurns rest

end

/-- Takes the steps of a script until one halts; gives the answers and the scene
that is left. -/
def play : List Step → Scene Cast → List Answer × Scene Cast
  | [], scene => ([], scene)
  | step :: rest, scene =>
      match takeStep step scene with
      | .ok answer scene =>
          let (answers, scene) := play rest scene
          (answer :: answers, scene)
      | .error (.halted h) scene =>
          let cast := scene.others
          ([.mk (.halted h) none none cast.journal cast.yielded], scene)
      | .error (.refused r) scene => ([.mk (.refused r) none none [] []], scene)

/-- How the kernel of a script is set up. -/
inductive Setting where
  /-- As usual. -/
  | standard
  /-- With a number of messages that endpoints queue. -/
  | depth (depth : Nat)
  /-- As a configuration says. -/
  | config (text : String)

/-- The number of messages that endpoints queue. -/
def Setting.depth? : Setting → Except ConfigError Nat
  | standard => .ok Kernel.standardDepth
  | depth n => .ok n
  | config text => (Config.ofText text).map Config.queueDepth

/-- Runs a script from an empty scene; gives the answers and the kernel that is
left. -/
def runScript (setting : Setting) (steps : List Step) :
    Except ConfigError (List Answer × Kernel) := do
  let depth ← setting.depth?
  let (answers, scene) := play steps ⟨Machine.create depth, {}⟩
  return (answers, scene.machine.kernel)

end Conduit.Script
