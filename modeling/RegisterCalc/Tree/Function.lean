/-!
# Functions

The functions that an expression can call, by name: each is found under its own
(`Function.ofName?_name`). What statements may call is a table of names for itself, since a name is
refused when it is read and not when it is called. The two agree (`Function.isCallable_eq`), so
whatever is read can be called.
-/

namespace RegisterCalc

/-- A function of one argument. -/
inductive Function where
  | sin | cos | exp
  deriving DecidableEq, Repr

namespace Function

/-- The name that calls a function. -/
def name : Function → String
  | sin => "sin"
  | cos => "cos"
  | exp => "exp"

/-- The function of a name, if it is the name of one. -/
def ofName? (name : String) : Option Function :=
  [sin, cos, exp].find? (·.name = name)

/-- A function is found under its name. -/
theorem ofName?_name (f : Function) : ofName? f.name = some f := by
  cases f <;> decide +kernel

/-- The names that statements may call. -/
def callable : List String := ["sin", "cos", "exp"]

/-- Whether statements may call a name. -/
def isCallable (name : String) : Bool := callable.contains name

/-- Statements may call the names of functions, and no others. -/
theorem isCallable_eq (name : String) : isCallable name = (ofName? name).isSome := by
  have names : callable = [sin, cos, exp].map Function.name := rfl
  rw [Bool.eq_iff_iff, isCallable, List.contains_iff_mem, names, List.mem_map, ofName?,
    List.find?_isSome]
  simp only [decide_eq_true_eq]

/-- Statements may call the name of a function. -/
theorem isCallable_name (f : Function) : isCallable f.name = true := by
  rw [isCallable_eq, ofName?_name]
  rfl

end Function

end RegisterCalc
