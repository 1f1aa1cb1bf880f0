/-!
# Exceptions raised by the modelled operations

One constructor for each exception class of `StageException.py` that a modelled
function raises, with the message it is raised with.  `runtimeError` is Python's own
`RuntimeError` (a closed event loop, an executor that is shut down, a reservation
underflow).
-/

namespace AgentlyStage

inductive StageError where
  | stageClosed (message : String)
  | stageLifecycle (message : String)
  | stageBackpressure (message : String)
  | runtimeError (message : String)
deriving DecidableEq, Repr

end AgentlyStage
