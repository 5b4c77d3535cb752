import PathAlgebra.Outcome

set_option autoImplicit false

/-! # Running tasks

A task is run at every entry of a list, and what it gives is collected. The tasks may be run in
any order and at once. The runner at hand goes from the first entry to the last.
-/

namespace PathAlgebra

/-- A way of running a task at every entry of a list. -/
class TaskRunner where
  /-- What a task gives at the entries of a list. It may give nothing, and it may break an
  assertion. -/
  collect {α β : Type} : (α → Asserted (Option β)) → List α → Asserted (List β)

/-- Goes from the first entry to the last, up to the first broken assertion. -/
instance : TaskRunner where
  collect task l := return (← l.mapM task).filterMap id

end PathAlgebra
