import LayoutPlanner.Json.Document
import LayoutPlanner.Text.Blank

/-!
# Configuration

The knobs of the planner, their written form, and the overrides taken from environment variables.
-/

namespace LayoutPlanner

structure Config where
  /-- Also reorders the constant operands of fused operations. -/
  optimizeLayout : Bool := true
  /-- Builds on the executor of the run instead of one task after the other. -/
  parallelBuild : Bool := true
  /-- Number of build threads; zero leaves the choice to the pool. -/
  buildThreads : Nat := 0
  /-- Lets a node pinned to the vendor fall back to generated kernels. -/
  allowVendorDemotion : Bool := true
  deriving DecidableEq

namespace Config

/-- A field that is absent takes its default. -/
def fieldOr {α : Type} (read? : Json → Option α) (default : α) : Option Json → Option α
  | none => some default
  | some json => read? json

instance : Document Config where
  toJson config := .object [
    ("optimize_layout", .bool config.optimizeLayout),
    ("parallel_build", .bool config.parallelBuild),
    ("build_threads", .nat config.buildThreads),
    ("allow_vendor_demotion", .bool config.allowVendorDemotion)]
  ofJson? json := do
    match ← json.fields?
      ["optimize_layout", "parallel_build", "build_threads", "allow_vendor_demotion"] with
    | [layout, build, threads, demotion] =>
      return {
        optimizeLayout := ← fieldOr Json.asBool? true layout
        parallelBuild := ← fieldOr Json.asBool? true build
        buildThreads := ← fieldOr Json.asSize? 0 threads
        allowVendorDemotion := ← fieldOr Json.asBool? true demotion }
    | _ => none

end Config

/-- A look-up of environment variables.  Values are bytes that need not be text. -/
abbrev Environment := String → Option ByteArray

namespace Environment

/-- The value of a variable without blanks around it.  A value that is blank or not UTF-8 counts
as unset. -/
def setting? (env : Environment) (name : String) : Option (List Char) := do
  let text ← String.fromUTF8? (← env name)
  let trimmed := Text.trimmed text
  if trimmed.isEmpty then none else some trimmed

/-- Any value but the four that mean yes means no. -/
def flag? (env : Environment) (name : String) : Option Bool :=
  (env.setting? name).map fun value =>
    ["1", "true", "yes", "on"].contains (String.ofList (value.map Char.toLower))

/-- A thread count: digits with an optional plus sign, of a number that fits a size. -/
def readCount? (value : List Char) : Option Nat :=
  let digits := if value.head? = some '+' then value.tail else value
  if digits.isEmpty || !digits.all Char.isDigit then none else Size.ofDigits? digits

def count? (env : Environment) (name : String) : Option Nat :=
  (env.setting? name).bind readCount?

end Environment

/-- The configuration with the overrides that the environment holds.  The names of the variables
start with `scope`. -/
def Config.overriddenBy (config : Config) (scope : String) (env : Environment) : Config :=
  { config with
    optimizeLayout := (env.flag? (scope ++ "OPTIMIZE_LAYOUT")).getD config.optimizeLayout
    parallelBuild := (env.flag? (scope ++ "PARALLEL_BUILD")).getD config.parallelBuild
    buildThreads := (env.count? (scope ++ "BUILD_THREADS")).getD config.buildThreads }

end LayoutPlanner
