import KeySearch.ConfigError
import KeySearch.Word

/-! The settings of a search: where it starts, into how many tasks of which width an iteration is
divided, which of the two indices it varies, and how many iterations it may take. Any numbers may be
put in; `validate` tells whether a search can be run with them. -/

namespace KeySearch.Search

structure Config where
  startIndex : UInt64
  numTasks : UInt64
  taskWidth : UInt64
  /-- Vary the account and leave the address at zero, instead of the other way round. -/
  accountOnly : Bool
  maxIterations : Option UInt64
  deriving DecidableEq

namespace Config

/-- The candidates of a task where nothing else is asked for. -/
def defaultTaskWidth : UInt64 := 1024

/-- The usual settings for a number of parallel tasks. -/
def withTasks (numTasks : UInt64) : Config := ⟨0, numTasks, defaultTaskWidth, false, none⟩

/-- Of two faults the number of tasks comes first. -/
def validate (c : Config) : Except ConfigError Unit :=
  if c.numTasks = 0 then .error .zeroTasks
  else if c.taskWidth = 0 then .error .zeroTaskWidth
  else .ok ()

/-- The candidates of one iteration, or the largest word where there are more. -/
def candidatesPerIteration (c : Config) : UInt64 := Word.mulCapped c.numTasks c.taskWidth

def describe (c : Config) : String :=
  Text.Record.render "SearchConfig"
    [("start_index", Text.Decimal.render c.startIndex.toNat),
      ("num_tasks", Text.Decimal.render c.numTasks.toNat),
      ("task_width", Text.Decimal.render c.taskWidth.toNat),
      ("use_account_index_only", if c.accountOnly then "true" else "false"),
      ("max_iterations",
        Text.Record.optional (fun n => Text.Decimal.render n.toNat) c.maxIterations)]

end Config

end KeySearch.Search
