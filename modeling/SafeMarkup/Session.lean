/-
# The default policy of a session

Where no policy is given, the default one of the session counts; at the start that is the standard
policy.  A session is a sequence of steps.  A step can replace the default, go back to the standard
policy, or run further steps under another default: when those end, in whatever way, the default
that was there before is there again.  Steps that run in a thread of their own start from the
standard policy, and what they replace is theirs alone.

Every step reports the default that holds after it.  A policy is called by a name, so that a report
can say which one it was; the standard policy has the empty call, `none`.

Steps nest, and so do the runs: a block is run by running its steps from its own default and
forgetting what they have made of it.  In this form no step has to restore anything.  That a single
variable with a kept value for every open block behaves in the same way is proved in
`Proofs/Scoping.lean`, together with which default holds at which place.

A step that fails reports the fault and leaves the default alone, and the steps after it are run.
-/
import SafeMarkup.Policy.Standard
import SafeMarkup.Sanitizing

namespace SafeMarkup

namespace Session

/-- A policy together with the name it is called by. -/
structure Named where
  name : Option String
  policy : Policy

def initial : Named := ⟨none, .standard⟩

/-- What a step is given where a policy belongs. -/
inductive Given where
  | policy (named : Named)
  | value (value : Value)

/-- A step of a session. -/
inductive Step where
  | get
  | set (given : Given)
  /-- Goes back to the standard policy. -/
  | reset
  | sanitize (value : Value)
  /-- Sanitizes a value by a policy of its own. -/
  | sanitizeWith (given : Given) (value : Value)
  /-- Runs steps under another default.  `raises` says that an error follows the last of them, which
  is caught around the block; since the block is left then in any case, only the report tells. -/
  | within (given : Given) (raises : Bool) (steps : List Step)
  | thread (steps : List Step)

/-- What a step reports, beside the default that holds after it. -/
inductive Report where
  | done (current : Option String)
  | sanitized (current : Option String) (node : Node)
  | ran (current : Option String) (raised : Bool) (reports : List Report)
  | failed (fault : Fault)

/-! ## Values in place of policies -/

def Given.policy? : Given → Except Fault Named
  | .policy named => .ok named
  | .value other => .error (.notPolicy other.typeName)

mutual

/-- An element is reached on the way down from the node, through roots only. -/
def asksPolicy : Node → Bool
  | .root children _ _ => asksPolicyIn children
  | .element .. => true
  | _ => false
termination_by structural node => node

def asksPolicyIn : Value → Bool
  | .list items | .tuple items => asksPolicyAmong items
  | _ => false
termination_by structural value => value

def asksPolicyAmong : List Value → Bool
  | [] => false
  | .node node :: rest => asksPolicy node || asksPolicyAmong rest
  | _ :: rest => asksPolicyAmong rest
termination_by structural items => items

end

/-- Sanitizes by what was given.  The absent value leaves it to the default.  Any other value is
found to be no policy only when an element asks it something; a tree without elements needs no
answer. -/
def sanitizeBy (current : Named) (given : Given) (value : Value) : Except Fault Node :=
  match given with
  | .policy named => .ok (named.policy.sanitize value)
  | .value .null => .ok (current.policy.sanitize value)
  | .value _ =>
    match Policy.treeIn? value with
    | some node =>
      if asksPolicy node then .error .noEntries else .ok (initial.policy.sanitize value)
    | none => .ok (initial.policy.sanitize value)

/-! ## Steps -/

mutual

/-- Runs a step: the default after it, and its report.  A step that fails is caught by itself, so
the steps after it are run as if it had not been there, also within a block. -/
def step (current : Named) : Step → Named × Report
  | .get => (current, .done current.name)
  | .set given =>
    match given.policy? with
    | .ok named => (named, .done named.name)
    | .error fault => (current, .failed fault)
  | .reset => (initial, .done initial.name)
  | .sanitize value => (current, .sanitized current.name (current.policy.sanitize value))
  | .sanitizeWith given value =>
    match sanitizeBy current given value with
    | .ok node => (current, .sanitized current.name node)
    | .error fault => (current, .failed fault)
  | .within given raises steps =>
    match given.policy? with
    | .ok named => (current, .ran current.name raises (run named steps).2)
    | .error fault => (current, .failed fault)
  | .thread steps => (current, .ran current.name false (run initial steps).2)
termination_by structural s => s

/-- Runs steps one after the other: the default after them, and their reports. -/
def run (current : Named) : List Step → Named × List Report
  | [] => (current, [])
  | first :: rest =>
    let (between, report) := step current first
    let (last, reports) := run between rest
    (last, report :: reports)
termination_by structural steps => steps

end

end Session

end SafeMarkup
